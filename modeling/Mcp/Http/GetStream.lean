import Mcp.Http.Routing

/-! The GET streams of a session: what their content providers take out of the queue, and what
they write. -/
namespace Mcp.Http.SessionTransport

open Transition

/-- One GET. -/
inductive Stream where
  | unopened
  /-- Between two calls of its provider. -/
  | streaming
  -- inside a call: in wait_get_frame, with a frame in hand, before the heartbeat
  | waiting
  | holding (frame : String)
  | beating
  /-- A call has returned false. -/
  | done
  | gone
  deriving DecidableEq

/-- The transport and its GET streams. The last four fields record what happened, by stream where
there is one. -/
structure Streams (codec : Codec) where
  transport : State codec
  stream : ℕ → Stream
  accepted : List String
  taken : List (ℕ × String)
  written : List (ℕ × String)
  /-- What was in hand when a write failed. -/
  dropped : List (ℕ × String)

variable {codec : Codec} {s s' : State codec} {l l' : Streams codec} {a : Action codec}
  {g : ℕ} {frame : String}

/-- send() queues the frame for a GET stream. -/
def queues (codec : Codec) (frame : String) : Bool :=
  match codec.parse frame with
  | none => false
  | some j => !(hasId j && !j.contains "method")

/-- The frame that a step of send() puts into the queue. -/
def State.accepts (s : State codec) : Action codec → List String
  | .push t => match s.pc t with
    | .emitting m => if queues codec m.frame then [m.frame] else []
    | _ => []
  | .route t => match s.pc t with
    | .answering _ _ m => if queues codec m.frame then [m.frame] else []
    | _ => []
  | _ => []

def Streams.setStream (l : Streams codec) (g : ℕ) (st : Stream) : Streams codec :=
  { l with stream := Function.update l.stream g st }

inductive Streams.Action (codec : Codec) where
  | enter (g : ℕ)
  | call (g : ℕ) (writable : Bool)
  | take (g : ℕ)
  | nothing (g : ℕ)
  | write (g : ℕ) (ok : Bool)
  | beat (g : ℕ) (ok : Bool)
  | leave (g : ℕ)
  | other (a : SessionTransport.Action codec)

inductive Streams.Step (codec : Codec) :
    Streams codec → Streams.Action codec → Streams codec → Prop where
  | enter {l : Streams codec} {g : ℕ} {s} : l.stream g = .unopened →
      SessionTransport.Step codec l.transport .enterGet s →
      Streams.Step codec l (.enter g) ({ l with transport := s }.setStream g .streaming)
  | call {l : Streams codec} {g : ℕ} {writable} : l.stream g = .streaming →
      Streams.Step codec l (.call g writable)
        (l.setStream g (if l.transport.closed || !writable then .done else .waiting))
  | take {l : Streams codec} {g : ℕ} {frame frames s} : l.stream g = .waiting →
      l.transport.getQueue = frame :: frames →
      SessionTransport.Step codec l.transport .takeGet s →
      Streams.Step codec l (.take g)
        ({ l with transport := s, taken := l.taken ++ [(g, frame)] }.setStream g (.holding frame))
  -- fifteen seconds have passed, or the transport is closed
  | nothing {l : Streams codec} {g : ℕ} : l.stream g = .waiting → l.transport.getQueue = [] →
      Streams.Step codec l (.nothing g) (l.setStream g .beating)
  | written {l : Streams codec} {g : ℕ} {frame} : l.stream g = .holding frame →
      Streams.Step codec l (.write g true)
        ({ l with written := l.written ++ [(g, frame)] }.setStream g .streaming)
  | unwritten {l : Streams codec} {g : ℕ} {frame} : l.stream g = .holding frame →
      Streams.Step codec l (.write g false)
        ({ l with dropped := l.dropped ++ [(g, frame)] }.setStream g .done)
  | beat {l : Streams codec} {g : ℕ} {ok} : l.stream g = .beating →
      Streams.Step codec l (.beat g ok) (l.setStream g (if ok then .streaming else .done))
  | leave {l : Streams codec} {g : ℕ} {s} : l.stream g = .streaming ∨ l.stream g = .done →
      SessionTransport.Step codec l.transport .leaveGet s →
      Streams.Step codec l (.leave g) ({ l with transport := s }.setStream g .gone)
  | other {l : Streams codec} {a s} : a ≠ .takeGet → SessionTransport.Step codec l.transport a s →
      Streams.Step codec l (.other a)
        { l with transport := s, accepted := l.accepted ++ l.transport.accepts a }

def unstreamed : Streams codec where
  transport := fresh
  stream _ := .unopened
  accepted := []
  taken := []
  written := []
  dropped := []

def getStreams (codec : Codec) : System (Streams codec) (Streams.Action codec) where
  Initial l := l = unstreamed
  Step := Streams.Step codec

/-- A call of the provider is running. -/
def Stream.InCall : Stream → Prop
  | .waiting | .holding _ | .beating => True
  | _ => False

def Stream.hand : Stream → List String
  | .holding frame => [frame]
  | _ => []

/-- The events of one stream. -/
def eventsOf (g : ℕ) (es : List (ℕ × String)) : List String :=
  (es.filter (fun e => e.1 == g)).map Prod.snd

@[simp] theorem eventsOf_append (es es' : List (ℕ × String)) :
    eventsOf g (es ++ es') = eventsOf g es ++ eventsOf g es' := by
  simp [eventsOf]

@[simp] theorem eventsOf_self : eventsOf g [(g, frame)] = [frame] := by
  simp [eventsOf]

theorem eventsOf_ne {g' : ℕ} (h : g' ≠ g) : eventsOf g' [(g, frame)] = [] := by
  simp [eventsOf, Ne.symm h]

theorem getQueue_send (s : State codec) (frame : String) :
    (s.send frame).getQueue = s.getQueue ++ if queues codec frame then [frame] else [] := by
  cases hp : codec.parse frame with
  | none => simp [State.send, queues, hp]
  | some j =>
    cases hr : hasId j && !j.contains "method" with
    | true =>
      have hq : queues codec frame = false := by simp only [queues, hp, hr, Bool.not_true]
      simp only [State.send, hp, hr, hq, if_true]
      split <;> simp
    | false =>
      have hq : queues codec frame = true := by simp only [queues, hp, hr, Bool.not_false]
      simp [State.send, hp, hr, hq]

/-- The queue grows at its end, by what send() accepts. -/
theorem getQueue_step (hst : Step codec s a s') (ha : a ≠ .takeGet) :
    s'.getQueue = s.getQueue ++ s.accepts a := by
  cases hst with
  | @startHand f fs _ =>
    obtain ⟨owed, he⟩ := take_frame { s with starting := fs } f
    simp [he, State.accepts]
  | post _ =>
    unfold State.deliver
    split <;> try split
    all_goals simp [State.accepts, State.setPC, State.register]
  | @handOver t f _ =>
    obtain ⟨owed, buffered, he⟩ := handOver_frame s f
    simp [he, State.accepts, State.setPC]
  | @route t p id m hpc | @push t m hpc =>
    simp [State.accepts, State.setPC, hpc, getQueue_send]
  | takeGet _ => exact absurd rfl ha
  | _ => simp [State.accepts, State.setPC]

/-- What was accepted has been taken, in order, or is in the queue. -/
def Accounted (l : Streams codec) : Prop :=
  l.accepted = l.taken.map Prod.snd ++ l.transport.getQueue

theorem accounted_step {b : Streams.Action codec} (hst : Streams.Step codec l b l')
    (h : Accounted l) : Accounted l' := by
  cases hst with
  | enter _ hs | leave _ hs =>
    cases hs
    exact h
  | take _ hq hs =>
    cases hs with
    | takeGet hq' =>
      cases hq.symm.trans hq'
      simp only [Accounted, Streams.setStream] at h ⊢
      rw [h, hq]
      simp
  | other ha hs =>
    simp only [Accounted] at h ⊢
    rw [h, getQueue_step hs ha, List.append_assoc]
  | _ => exact h

/-- What a stream took it wrote, dropped, or has in hand; it drops nothing before its end, and one
frame at most. -/
structure Kept (l : Streams codec) (g : ℕ) : Prop where
  taken : eventsOf g l.taken =
    eventsOf g l.written ++ eventsOf g l.dropped ++ (l.stream g).hand
  dropped : eventsOf g l.dropped = [] ∨
    ((l.stream g = .done ∨ l.stream g = .gone) ∧ (eventsOf g l.dropped).length = 1)

/-- A stream moves on, and what it has in hand stays in hand. -/
theorem Kept.move {g' : ℕ} {st : Stream} (h : ∀ g, Kept l g) (hstream : l'.stream =
    Function.update l.stream g st) (ht : l'.taken = l.taken) (hw : l'.written = l.written)
    (hd : l'.dropped = l.dropped) (hhand : (l.stream g).hand = st.hand)
    (hend : (l.stream g = .done ∨ l.stream g = .gone) → (st = .done ∨ st = .gone)) :
    Kept l' g' := by
  obtain ⟨htaken, hdropped⟩ := h g'
  by_cases hg : g' = g
  · subst g'
    refine ⟨?_, ?_⟩
    · rw [hstream, ht, hw, hd, Function.update_self, ← hhand]
      exact htaken
    · rw [hstream, hd, Function.update_self]
      exact hdropped.imp id (fun ⟨he, hl⟩ => ⟨hend he, hl⟩)
  · refine ⟨?_, ?_⟩
    · rw [hstream, ht, hw, hd, Function.update_of_ne hg]
      exact htaken
    · rw [hstream, hd, Function.update_of_ne hg]
      exact hdropped

/-- What happens at another stream does not matter. -/
theorem Kept.beside {g' : ℕ} {st : Stream} (h : Kept l g') (hg : g' ≠ g)
    (hstream : l'.stream = Function.update l.stream g st)
    (ht : eventsOf g' l'.taken = eventsOf g' l.taken)
    (hw : eventsOf g' l'.written = eventsOf g' l.written)
    (hd : eventsOf g' l'.dropped = eventsOf g' l.dropped) : Kept l' g' := by
  obtain ⟨htaken, hdropped⟩ := h
  refine ⟨?_, ?_⟩
  · rw [hstream, ht, hw, hd, Function.update_of_ne hg]
    exact htaken
  · rw [hstream, hd, Function.update_of_ne hg]
    exact hdropped

theorem kept_step {b : Streams.Action codec} (hst : Streams.Step codec l b l')
    (h : ∀ g, Kept l g) (g' : ℕ) : Kept l' g' := by
  cases hst with
  | enter hpc _ =>
    exact .move h rfl rfl rfl rfl (by simp [hpc, Stream.hand]) (by simp [hpc])
  | @call g writable hpc =>
    refine .move h rfl rfl rfl rfl ?_ (by simp [hpc])
    rw [hpc]
    split <;> rfl
  | @take g frame frames s hpc _ _ =>
    by_cases hg : g' = g
    · subst g'
      obtain ⟨htaken, hdropped⟩ := h g
      refine ⟨?_, ?_⟩
      · simp [Streams.setStream, htaken, hpc, Stream.hand]
      · simpa [Streams.setStream, hpc] using hdropped
    · exact (h g').beside hg rfl (by simp [Streams.setStream, eventsOf_ne hg]) rfl rfl
  | nothing hpc _ =>
    exact .move h rfl rfl rfl rfl (by simp [hpc, Stream.hand]) (by simp [hpc])
  | @written g frame hpc =>
    by_cases hg : g' = g
    · subst g'
      obtain ⟨htaken, hdropped⟩ := h g
      -- a stream that has a frame in hand has dropped none
      have hnone : eventsOf g l.dropped = [] := by simpa [hpc] using hdropped
      refine ⟨?_, .inl hnone⟩
      simp [Streams.setStream, htaken, hnone, hpc, Stream.hand]
    · exact (h g').beside hg rfl rfl (by simp [Streams.setStream, eventsOf_ne hg]) rfl
  | @unwritten g frame hpc =>
    by_cases hg : g' = g
    · subst g'
      obtain ⟨htaken, hdropped⟩ := h g
      have hnone : eventsOf g l.dropped = [] := by simpa [hpc] using hdropped
      refine ⟨?_, .inr ⟨.inl ?_, ?_⟩⟩
      · simp [Streams.setStream, htaken, hnone, hpc, Stream.hand]
      · simp [Streams.setStream]
      · simp [Streams.setStream, hnone]
    · exact (h g').beside hg rfl rfl rfl (by simp [Streams.setStream, eventsOf_ne hg])
  | @beat g ok hpc =>
    refine .move h rfl rfl rfl rfl ?_ (by simp [hpc])
    rw [hpc]
    split <;> rfl
  | leave hpc _ =>
    refine .move h rfl rfl rfl rfl ?_ (fun _ => .inr rfl)
    rcases hpc with hpc | hpc <;> rw [hpc] <;> rfl
  | other _ _ => exact ⟨(h g').taken, (h g').dropped⟩

theorem ledger_reachable {ok : Streams codec → Streams.Action codec → Prop}
    (h : (getStreams codec).Reachable ok l) : Accounted l ∧ ∀ g, Kept l g := by
  refine h.invariant (P := fun l => Accounted l ∧ ∀ g, Kept l g) ?_ ?_
  · rintro l rfl
    exact ⟨rfl, fun g => ⟨rfl, .inl rfl⟩⟩
  · rintro l b l' - ⟨ha, hk⟩ - hst
    exact ⟨accounted_step hst ha, kept_step hst hk⟩

theorem count_eventsOf (es : List (ℕ × String)) :
    (eventsOf g es).count frame = es.count (g, frame) := by
  induction es with
  | nil => rfl
  | cons e es ih =>
    obtain ⟨g', frame'⟩ := e
    by_cases hg : g' = g
    · subst g'
      simpa [eventsOf, List.count_cons] using ih
    · simpa [eventsOf, List.count_cons, hg] using ih

/-- Lists of events that agree on each stream agree up to order. -/
theorem perm_of_eventsOf {es es' : List (ℕ × String)} (h : ∀ g, eventsOf g es = eventsOf g es') :
    es.Perm es' := by
  rw [List.perm_iff_count]
  rintro ⟨g, frame⟩
  rw [← count_eventsOf, ← count_eventsOf, h]

/-- No write of a frame fails, and no stream takes a frame while another has one in hand. -/
def Orderly (l : Streams codec) : Streams.Action codec → Prop
  | .take _ => ∀ g frame, l.stream g ≠ .holding frame
  | .write _ ok => ok = true
  | _ => True

/-- What was taken is written, but for the one frame in hand. -/
structure InOrder (l : Streams codec) : Prop where
  idle : (∀ g frame, l.stream g ≠ .holding frame) → l.taken = l.written
  holding : ∀ g frame, l.stream g = .holding frame → l.taken = l.written ++ [(g, frame)]

/-- A stream without a frame moves on without one. -/
theorem InOrder.move {st : Stream} (h : InOrder l)
    (hstream : l'.stream = Function.update l.stream g st) (ht : l'.taken = l.taken)
    (hw : l'.written = l.written) (hpc : (l.stream g).hand = []) (hst : st.hand = []) :
    InOrder l' := by
  have hheld : ∀ g' frame, l'.stream g' = .holding frame ↔ l.stream g' = .holding frame := by
    intro g' frame
    rw [hstream]
    by_cases hg : g' = g
    · subst g'
      rw [Function.update_self]
      constructor
      · rintro rfl
        cases hst
      · intro he
        rw [he] at hpc
        cases hpc
    · rw [Function.update_of_ne hg]
  refine ⟨?_, ?_⟩
  · intro hnone
    rw [ht, hw]
    exact h.idle fun g' frame he => hnone g' frame ((hheld g' frame).mpr he)
  · intro g' frame he
    rw [ht, hw]
    exact h.holding g' frame ((hheld g' frame).mp he)

theorem inOrder_step {b : Streams.Action codec} (hst : Streams.Step codec l b l')
    (hok : Orderly l b) (h : InOrder l) : InOrder l' := by
  cases hst with
  | enter hpc _ | nothing hpc _ => exact h.move rfl rfl rfl (by simp [hpc, Stream.hand]) rfl
  | call hpc | beat hpc =>
    refine h.move rfl rfl rfl (by simp [hpc, Stream.hand]) ?_
    split <;> rfl
  | leave hpc _ =>
    refine h.move rfl rfl rfl ?_ rfl
    rcases hpc with hpc | hpc <;> rw [hpc] <;> rfl
  | @take g frame frames s hpc _ _ =>
    have htaken : l.taken = l.written := h.idle hok
    refine ⟨?_, ?_⟩
    · intro hnone
      exact absurd (Function.update_self g _ _) (hnone g frame)
    · intro g' frame' he
      rcases update_cases he with ⟨rfl, hmine⟩ | ⟨-, hother⟩
      · cases hmine
        simp [Streams.setStream, htaken]
      · exact absurd hother (hok g' frame')
  | @written g frame hpc =>
    have htaken := h.holding g frame hpc
    refine ⟨fun _ => htaken, ?_⟩
    intro g' frame' he
    rcases update_cases he with ⟨-, he⟩ | ⟨hg, he⟩
    · cases he
    · -- two streams cannot both have the last frame that was taken
      have hlast := (h.holding g' frame' he).symm.trans htaken
      simp only [List.append_cancel_left_eq, List.cons.injEq, Prod.mk.injEq] at hlast
      exact absurd hlast.1.1 hg
  | unwritten _ => cases hok
  | other _ _ => exact ⟨h.idle, h.holding⟩

theorem inOrder_reachable (h : (getStreams codec).Reachable Orderly l) : InOrder l := by
  refine h.invariant (P := InOrder) ?_ fun _ _ _ _ hi hok hst => inOrder_step hst hok hi
  rintro l rfl
  exact ⟨fun _ => rfl, nofun⟩

/-- The frames that streams have taken, in order, and the queue are the frames accepted. Each stream
writes what it takes, in order, but for a last frame whose write fails; so while no provider is
called, what was taken is what was written or dropped. And while no write fails and frames are
taken one at a time, what was written and the queue are what was accepted. -/
theorem frames_accounted_for (codec : Codec) (l : Streams codec)
    (h : (getStreams codec).Reachable Free l) :
    l.accepted = l.taken.map Prod.snd ++ l.transport.getQueue ∧
    (∀ g, eventsOf g l.taken =
        eventsOf g l.written ++ eventsOf g l.dropped ++ (l.stream g).hand ∧
      (eventsOf g l.dropped = [] ∨ ((l.stream g = .done ∨ l.stream g = .gone) ∧
        (eventsOf g l.dropped).length = 1))) ∧
    ((∀ g, ¬(l.stream g).InCall) → l.taken.Perm (l.written ++ l.dropped)) ∧
    ((getStreams codec).Reachable Orderly l → (∀ g, ¬(l.stream g).InCall) →
      l.written.map Prod.snd ++ l.transport.getQueue = l.accepted) := by
  obtain ⟨haccounted, hkept⟩ := ledger_reachable h
  refine ⟨haccounted, fun g => ⟨(hkept g).taken, (hkept g).dropped⟩, ?_, ?_⟩
  · intro hcalls
    apply perm_of_eventsOf
    intro g
    have hhand : (l.stream g).hand = [] := by
      cases hg : l.stream g with
      | holding frame => exact (hcalls g (by simp [hg, Stream.InCall])).elim
      | _ => rfl
    rw [(hkept g).taken, hhand, List.append_nil, eventsOf_append]
  · intro horderly hcalls
    have hidle : ∀ g frame, l.stream g ≠ .holding frame := by
      intro g frame hg
      exact hcalls g (by simp [hg, Stream.InCall])
    rw [haccounted, (inOrder_reachable horderly).idle hidle]

def noteText (method : String) : String :=
  "\x7b\"jsonrpc\":\"2.0\",\"method\":\"" ++ method ++ "\"\x7d"

def noteJson (method : String) : Json :=
  .object [("jsonrpc", .string "2.0"), ("method", .string method)]

/-- The text codec on two notifications. -/
def noteCodec : Codec where
  parse text :=
    if text = noteText "a" then some (noteJson "a")
    else if text = noteText "b" then some (noteJson "b")
    else none
  dump
    | .object [(k₁, .string v), (k₂, .string m)] =>
      if k₁ = "jsonrpc" ∧ v = "2.0" ∧ k₂ = "method" then some (noteText m) else none
    | _ => none

def note (method : String) : Outgoing noteCodec none where
  msg := .notification { method, params := none }
  frame := noteText method
  dumped := rfl
  answers := rfl

section Traces

variable {ok : Streams codec → Streams.Action codec → Prop} {b : Streams.Action codec} {t : ℕ}

theorem streams_step (h : (getStreams codec).Reachable ok l) (hst : Streams.Step codec l b l')
    (hb : ok l b) : (getStreams codec).Reachable ok l' := h.step hb hst

theorem send_of_queues (hq : queues codec frame = true) (s : State codec) :
    s.send frame = { s with getQueue := s.getQueue ++ [frame] } := by
  unfold queues at hq
  split at hq
  · cases hq
  · next j hj =>
    have hr : (hasId j && !j.contains "method") = false := by
      rw [← Bool.not_eq_true', hq]
    simp [State.send, hj, hr]

/-- A frame is sent and accepted. -/
theorem sent_reachable (h : (getStreams codec).Reachable Orderly l) (m : Outgoing codec none)
    (hopen : l.transport.closed = false) (hpc : l.transport.pc t = .idle)
    (hq : queues codec m.frame = true) : (getStreams codec).Reachable Orderly { l with
      transport := { l.transport with getQueue := l.transport.getQueue ++ [m.frame] }
      accepted := l.accepted ++ [m.frame] } := by
  have hemit := SessionTransport.Step.emit (m := m) hpc
  rw [hopen] at hemit
  have h₁ := streams_step h (.other (a := .emit t m) nofun hemit) trivial
  have hpush := SessionTransport.Step.push (s := l.transport.setPC t (.emitting m)) (t := t)
    (m := m) (Function.update_self ..)
  have h₂ := streams_step h₁ (.other (a := .push t) nofun hpush) trivial
  have hidle : Function.update (Function.update l.transport.pc t (.emitting m)) t .idle =
      l.transport.pc := update_back hpc
  rw [send_of_queues hq] at h₂
  simpa [State.setPC, State.accepts, hidle, hq] using h₂

/-- A stream is opened and waits for a frame. -/
theorem opened_reachable (h : (getStreams codec).Reachable Orderly l)
    (hopen : l.transport.closed = false) (hg : l.stream g = .unopened) :
    (getStreams codec).Reachable Orderly { l with
      transport := { l.transport with getActive := true }
      stream := Function.update l.stream g .waiting } := by
  have h₁ := streams_step h (.enter hg .enterGet) trivial
  have hcall : Streams.Step codec ({ l with
      transport := { l.transport with getActive := true } }.setStream g .streaming)
      (.call g true) _ := .call (Function.update_self ..)
  have h₂ := streams_step h₁ hcall trivial
  simpa [Streams.setStream, hopen] using h₂

end Traces

/-- Two notifications have been accepted, and no stream is open. -/
def queued : Streams noteCodec where
  transport := { fresh with getQueue := [noteText "a", noteText "b"] }
  stream _ := .unopened
  accepted := [noteText "a", noteText "b"]
  taken := []
  written := []
  dropped := []

theorem queued_reachable : (getStreams noteCodec).Reachable Orderly queued := by
  have h₀ : (getStreams noteCodec).Reachable Orderly unstreamed := .initial rfl
  have h₁ := sent_reachable (t := 0) h₀ (note "a") rfl rfl rfl
  exact sent_reachable (t := 0) h₁ (note "b") rfl rfl rfl

/-- Stream 0 writes the first notification. -/
theorem note_written : ∃ l : Streams noteCodec, l.written = [(0, noteText "a")] ∧
    l.transport.getQueue = [noteText "b"] ∧
    l.written.map Prod.snd ++ l.transport.getQueue = l.accepted := by
  have h₁ := opened_reachable (g := 0) queued_reachable rfl rfl
  have hempty : ∀ g frame, Function.update queued.stream 0 .waiting g ≠ .holding frame := by
    intro g frame hg
    rcases update_cases hg with ⟨-, hg⟩ | ⟨-, hg⟩ <;> cases hg
  have h₂ := streams_step h₁ (.take (g := 0) rfl rfl (.takeGet rfl)) hempty
  have h₃ := streams_step h₂ (.written (g := 0) rfl) rfl
  refine ⟨_, rfl, rfl, (frames_accounted_for noteCodec _ h₃.free).2.2.2 h₃ ?_⟩
  intro g
  by_cases h0 : g = 0
  · subst g
    exact id
  · simp [Streams.setStream, queued, Stream.InCall, h0]

/-- A write fails, and the notification is nowhere; two streams take one notification each, and
write them in the other order. -/
theorem note_lost_or_overtaken :
    (∃ l : Streams noteCodec, (getStreams noteCodec).Reachable Free l ∧
      l.transport.closed = false ∧ (∀ g, ¬(l.stream g).InCall) ∧
      l.written.map Prod.snd ++ l.transport.getQueue = [noteText "b"] ∧
      l.accepted = [noteText "a", noteText "b"]) ∧
    ∃ l : Streams noteCodec, (getStreams noteCodec).Reachable Free l ∧
      l.transport.closed = false ∧ (∀ g, ¬(l.stream g).InCall) ∧
      l.written.map Prod.snd ++ l.transport.getQueue = [noteText "b", noteText "a"] ∧
      l.accepted = [noteText "a", noteText "b"] := by
  have h₁ := opened_reachable (g := 0) queued_reachable rfl rfl
  constructor
  · have h₂ := streams_step h₁.free (.take (g := 0) rfl rfl (.takeGet rfl)) trivial
    have h₃ := streams_step h₂ (.unwritten (g := 0) rfl) trivial
    refine ⟨_, h₃, rfl, ?_, rfl, rfl⟩
    intro g
    by_cases h0 : g = 0
    · subst g
      exact id
    · simp [Streams.setStream, queued, Stream.InCall, h0]
  · have h₂ := (opened_reachable (g := 1) h₁ rfl rfl).free
    have h₃ := streams_step h₂ (.take (g := 0) rfl rfl (.takeGet rfl)) trivial
    have h₄ := streams_step h₃ (.take (g := 1) rfl rfl (.takeGet rfl)) trivial
    have h₅ := streams_step h₄ (.written (g := 1) rfl) trivial
    have h₆ := streams_step h₅ (.written (g := 0) rfl) trivial
    refine ⟨_, h₆, rfl, ?_, rfl, rfl⟩
    intro g
    by_cases h0 : g = 0
    · subst g
      exact id
    · by_cases h1 : g = 1
      · subst g
        exact id
      · simp [Streams.setStream, queued, Stream.InCall, h0, h1]

end Mcp.Http.SessionTransport
