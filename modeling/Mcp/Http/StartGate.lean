import Mcp.Http.Routing

/-! The gate that start() opens: what POSTs deliver while `run` makes the Session, registers its
handlers and starts it. -/
namespace Mcp.Http.SessionTransport

open Transition

/-- Who calls `on_message_`. -/
inductive Caller where
  | start
  | post
  deriving DecidableEq

/-- How far `run` has come. -/
inductive Stage where
  | unmade
  | registering (methods : List String)
  | started

/-- The transport of a session while its Server runs up. -/
structure Launch (codec : Codec) where
  transport : State codec
  stage : Stage
  registered : List String
  /-- The frames that have come to the section of `buffered_mu_`. -/
  delivered : List Frame
  /-- The calls of `on_message_`. -/
  handed : List (Caller × Frame)

variable {codec : Codec} {methods : List String} {s s' : State codec} {l l' : Launch codec}
  {a : Action codec} {t : ℕ}

/-- The frame a step brings to the gate. -/
def State.delivers (s : State codec) : Action codec → List Frame
  | .handOver t => match s.pc t with
    | .handing f => [f]
    | _ => []
  | _ => []

/-- The frame a step hands to the Session. -/
def State.hands (s : State codec) : Action codec → List (Caller × Frame)
  | .handOver t =>
    if s.started && s.listening then (s.delivers (.handOver t)).map (fun f => (.post, f)) else []
  | .startHand => (s.starting.take 1).map (fun f => (.start, f))
  | _ => []

inductive Launch.Action (codec : Codec) where
  | make
  | register
  | start
  | other (a : SessionTransport.Action codec)

inductive Launch.Step (codec : Codec) (methods : List String) :
    Launch codec → Launch.Action codec → Launch codec → Prop where
  -- the Session's constructor calls on_message()
  | make {l : Launch codec} {s : State codec} : l.stage = .unmade →
      SessionTransport.Step codec l.transport .onMessage s →
      Launch.Step codec methods l .make
        { l with transport := s, stage := .registering methods }
  | register {l : Launch codec} {m ms} : l.stage = .registering (m :: ms) →
      Launch.Step codec methods l .register
        { l with stage := .registering ms, registered := l.registered ++ [m] }
  | start {l : Launch codec} {s : State codec} : l.stage = .registering [] →
      SessionTransport.Step codec l.transport .start s →
      Launch.Step codec methods l .start { l with transport := s, stage := .started }
  | other {l : Launch codec} {a s} : a ≠ .onMessage → a ≠ .start →
      SessionTransport.Step codec l.transport a s →
      Launch.Step codec methods l (.other a) { l with
        transport := s
        delivered := l.delivered ++ l.transport.delivers a
        handed := l.handed ++ l.transport.hands a }

def unmade : Launch codec where
  transport := fresh
  stage := .unmade
  registered := []
  delivered := []
  handed := []

def launch (codec : Codec) (methods : List String) :
    System (Launch codec) (Launch.Action codec) where
  Initial l := l = unmade
  Step := Launch.Step codec methods

/-- What a caller has handed over, in order. -/
def Launch.handedBy (l : Launch codec) (c : Caller) : List Frame :=
  (l.handed.filter (fun h => h.1 == c)).map Prod.snd

/-- The gate is shut: what was delivered is buffered. -/
structure Shut (s : State codec) (delivered : List Frame) (handed : List (Caller × Frame)) :
    Prop where
  started : s.started = false
  buffered : s.buffered = delivered
  starting : s.starting = []
  handed : handed = []

/-- The gate is open: nothing is buffered, and what is delivered is handed over at once. -/
structure Opened (s : State codec) : Prop where
  started : (s.started && s.listening) = true
  buffered : s.buffered = []

/-- The gate at each stage of `run`. -/
def Launch.Gate (methods : List String) (l : Launch codec) : Prop :=
  match l.stage with
  | .unmade => l.registered = [] ∧ Shut l.transport l.delivered l.handed
  | .registering ms => l.registered ++ ms = methods ∧ l.transport.listening = true ∧
      Shut l.transport l.delivered l.handed
  | .started => l.registered = methods ∧ Opened l.transport ∧
      l.delivered = l.handedBy .start ++ l.transport.starting ++ l.handedBy .post

/-- Steps that are neither start() nor on_message() leave the two flags alone. -/
theorem flags_same (hst : Step codec s a s') (hon : a ≠ .onMessage) (hstart : a ≠ .start) :
    s'.started = s.started ∧ s'.listening = s.listening := by
  cases hst with
  | onMessage => exact absurd rfl hon
  | start => exact absurd rfl hstart
  | @startHand f fs _ =>
    obtain ⟨owed, he⟩ := take_frame { s with starting := fs } f
    rw [he]
    exact ⟨rfl, rfl⟩
  | post _ =>
    unfold State.deliver
    split <;> try split
    all_goals exact ⟨rfl, rfl⟩
  | @handOver t f _ =>
    obtain ⟨owed, buffered, he⟩ := handOver_frame s f
    rw [he]
    exact ⟨rfl, rfl⟩
  | @route t p id m _ | @push t m _ =>
    obtain ⟨pending, settled, getQueue, he⟩ := send_frame s m.frame
    rw [he]
    exact ⟨rfl, rfl⟩
  | _ => exact ⟨rfl, rfl⟩

/-- What a step does to the two buffers. -/
inductive Buffers (s : State codec) (a : Action codec) (s' : State codec) : Prop where
  | through : (s.started && s.listening) = true → s'.buffered = s.buffered →
      s'.starting = s.starting → s.hands a = (s.delivers a).map (fun f => (.post, f)) →
      Buffers s a s'
  | held : (s.started && s.listening) = false → s'.buffered = s.buffered ++ s.delivers a →
      s'.starting = s.starting → s.hands a = [] → Buffers s a s'
  | drained (f : Frame) : s.starting = f :: s'.starting → s'.buffered = s.buffered →
      s.delivers a = [] → s.hands a = [(.start, f)] → Buffers s a s'

/-- A step that brings nothing to the gate. -/
theorem buffers_same (hb : s'.buffered = s.buffered) (hs : s'.starting = s.starting)
    (hd : s.delivers a = []) (hh : s.hands a = []) : Buffers s a s' := by
  cases hf : s.started && s.listening with
  | true => exact .through hf hb hs (by rw [hh, hd, List.map_nil])
  | false => exact .held hf (by rw [hb, hd, List.append_nil]) hs hh

theorem buffers_handOver {f : Frame} {pc : PC codec} (hpc : s.pc t = .handing f) :
    Buffers s (.handOver t) ((s.handOver f).setPC t pc) := by
  have hd : s.delivers (.handOver t) = [f] := by simp [State.delivers, hpc]
  unfold State.handOver
  split
  · next hopen =>
    obtain ⟨owed, he⟩ := take_frame s f
    rw [he]
    exact .through hopen rfl rfl (by simp [State.hands, hopen])
  · next hshut =>
    have hshut := Bool.eq_false_of_not_eq_true hshut
    exact .held hshut (by rw [hd]; rfl) rfl (by simp [State.hands, hshut])

theorem buffers_step (hst : Step codec s a s') (hon : a ≠ .onMessage) (hstart : a ≠ .start) :
    Buffers s a s' := by
  cases hst with
  | onMessage => exact absurd rfl hon
  | start => exact absurd rfl hstart
  | @startHand f fs hfs =>
    obtain ⟨owed, he⟩ := take_frame { s with starting := fs } f
    rw [he]
    exact .drained f hfs rfl rfl (by simp [State.hands, hfs])
  | post _ =>
    unfold State.deliver
    split <;> try split
    all_goals exact buffers_same rfl rfl rfl rfl
  | handOver hpc => exact buffers_handOver hpc
  | @route t p id m _ | @push t m _ =>
    obtain ⟨pending, settled, getQueue, he⟩ := send_frame s m.frame
    rw [he]
    exact buffers_same rfl rfl rfl rfl
  | _ => exact buffers_same rfl rfl rfl rfl

/-- While the gate is shut, what comes is buffered. -/
theorem shut_other {delivered : List Frame} {handed : List (Caller × Frame)}
    (hb : Buffers s a s') (hstarted : s'.started = s.started) (h : Shut s delivered handed) :
    Shut s' (delivered ++ s.delivers a) (handed ++ s.hands a) := by
  cases hb with
  | through hopen => simp [h.started] at hopen
  | held _ hbuf hst hh =>
    exact ⟨hstarted.trans h.started, by rw [hbuf, h.buffered], hst.trans h.starting,
      by rw [h.handed, hh, List.append_nil]⟩
  | drained f hf => simp [h.starting] at hf

/-- Once it is open, what comes goes through, and start() hands over what it took out. -/
theorem opened_other (hb : Buffers l.transport a s) (hstarted : s.started = l.transport.started)
    (hlisten : s.listening = l.transport.listening) (h : Opened l.transport)
    (hd : l.delivered = l.handedBy .start ++ l.transport.starting ++ l.handedBy .post) :
    Opened s ∧ l.delivered ++ l.transport.delivers a =
      { l with handed := l.handed ++ l.transport.hands a }.handedBy .start ++ s.starting ++
        { l with handed := l.handed ++ l.transport.hands a }.handedBy .post := by
  obtain ⟨hopen, hbuf⟩ := h
  have hopen' : (s.started && s.listening) = true := by rw [hstarted, hlisten, hopen]
  cases hb with
  | through _ hbuf' hst hh =>
    refine ⟨⟨hopen', hbuf'.trans hbuf⟩, ?_⟩
    rw [hd, hst, hh]
    simp [Launch.handedBy, List.filter_map, Function.comp_def]
  | held hshut => simp [hopen] at hshut
  | drained f hf hbuf' hnone hh =>
    refine ⟨⟨hopen', hbuf'.trans hbuf⟩, ?_⟩
    rw [hd, hf, hnone, hh]
    simp [Launch.handedBy]

theorem gate_step {b : Launch.Action codec} (hst : Launch.Step codec methods l b l')
    (h : l.Gate methods) : l'.Gate methods := by
  cases hst with
  | make hstage hon =>
    simp only [Launch.Gate, hstage] at h
    obtain ⟨hreg, hshut⟩ := h
    cases hon
    exact ⟨by simp [hreg], rfl, hshut.started, hshut.buffered, hshut.starting, hshut.handed⟩
  | register hstage =>
    simp only [Launch.Gate, hstage] at h
    obtain ⟨hreg, hlisten, hshut⟩ := h
    exact ⟨by simpa using hreg, hlisten, hshut⟩
  | start hstage hstart =>
    simp only [Launch.Gate, hstage] at h
    obtain ⟨hreg, hlisten, hshut⟩ := h
    cases hstart
    refine ⟨by simpa using hreg, ⟨by simp [hlisten], rfl⟩, ?_⟩
    simp [Launch.handedBy, hlisten, hshut.handed, hshut.starting, hshut.buffered]
  | @other a s hon hstart hst =>
    have hb := buffers_step hst hon hstart
    obtain ⟨hstarted, hlistening⟩ := flags_same hst hon hstart
    unfold Launch.Gate at h ⊢
    cases hstage : l.stage with
    | unmade =>
      simp only [hstage] at h ⊢
      exact ⟨h.1, shut_other hb hstarted h.2⟩
    | registering ms =>
      simp only [hstage] at h ⊢
      exact ⟨h.1, hlistening.trans h.2.1, shut_other hb hstarted h.2.2⟩
    | started =>
      simp only [hstage] at h ⊢
      exact ⟨h.1, opened_other hb hstarted hlistening h.2.1 h.2.2⟩

theorem gate_reachable (h : (launch codec methods).Reachable Free l) : l.Gate methods := by
  refine h.invariant (P := Launch.Gate methods) ?_ fun _ _ _ _ hg _ hst => gate_step hst hg
  rintro l rfl
  exact ⟨rfl, rfl, rfl, rfl, rfl⟩

/-- From its section on, start() hands over the frames it took out, in their order. -/
theorem drain_run {l₁ : Launch codec} (h : (launch codec methods).Reachable Free l₁)
    (hstart : Launch.Step codec methods l₁ .start l)
    (hrun : (launch codec methods).Run Free l l') :
    l'.handedBy .start ++ l'.transport.starting = l₁.delivered := by
  have hgate := gate_reachable h
  cases hstart with
  | start hstage hst =>
    simp only [Launch.Gate, hstage] at hgate
    obtain ⟨-, hlisten, hshut⟩ := hgate
    cases hst
    have hinv : l'.stage = .started ∧
        l'.handedBy .start ++ l'.transport.starting = l₁.delivered := by
      refine hrun.invariant (P := fun l => l.stage = .started ∧
        l.handedBy .start ++ l.transport.starting = l₁.delivered) ?_ ?_
      · rintro l b l' ⟨hs, hd⟩ - hst
        cases hst with
        | make h | register h | start h => cases hs.symm.trans h
        | other hon hstart hst =>
          refine ⟨hs, ?_⟩
          rw [← hd]
          cases buffers_step hst hon hstart with
          | through _ _ hst hh => simp [Launch.handedBy, hst, hh, List.filter_map,
              Function.comp_def]
          | held _ _ hst hh => simp [Launch.handedBy, hst, hh]
          | drained f hf _ _ hh => simp [Launch.handedBy, hf, hh]
      · simp [Launch.handedBy, hlisten, hshut.handed, hshut.starting, hshut.buffered]
    exact hinv.2

/-- The two callers' frames are the frames handed over. -/
theorem perm_handedBy (l : Launch codec) :
    (l.handed.map Prod.snd).Perm (l.handedBy .start ++ l.handedBy .post) := by
  rw [Launch.handedBy, Launch.handedBy, ← List.map_append]
  apply List.Perm.map
  have hnot : ∀ h : Caller × Frame, (h.1 == Caller.post) = !(h.1 == Caller.start) := by
    rintro ⟨c, f⟩
    cases c <;> rfl
  simp only [hnot]
  exact (List.filter_append_perm _ _).symm

/-- A body that is JSON comes to the gate. -/
theorem deliver_handing {raw : String} (h : (codec.parse raw).isSome = true) :
    ∃ f, (s.deliver t raw).pc t = .handing f ∧ f.raw = raw := by
  obtain ⟨j, hj⟩ := Option.isSome_iff_exists.mp h
  simp only [State.deliver, hj]
  split
  · exact ⟨{ raw, reply := some s.promises }, by simp [State.setPC], rfl⟩
  · exact ⟨{ raw, reply := none }, by simp [State.setPC], rfl⟩

/-- Until start() nothing is handed over and every frame is buffered. From then on the handlers are
registered and nothing is buffered, and what start() has taken out it hands over in the order of
arrival; when it has, the frames handed over are the frames delivered, each as often. Each body that
is JSON is delivered. -/
theorem start_gate (codec : Codec) (methods : List String) (l : Launch codec)
    (h : (launch codec methods).Reachable Free l) :
    (l.stage ≠ .started → l.handed = [] ∧ l.transport.buffered = l.delivered) ∧
    (l.stage = .started → l.registered = methods ∧ l.transport.buffered = [] ∧
      (l.transport.starting = [] → (l.handed.map Prod.snd).Perm l.delivered)) ∧
    (∀ l₁ l₂, (launch codec methods).Reachable Free l₁ → Launch.Step codec methods l₁ .start l₂ →
      (launch codec methods).Run Free l₂ l →
      l.handedBy .start ++ l.transport.starting = l₁.transport.buffered) ∧
    ∀ t raw s, SessionTransport.Step codec l.transport (.post t raw) s →
      (codec.parse raw).isSome = true → ∃ f, s.pc t = .handing f ∧ f.raw = raw := by
  have hgate := gate_reachable h
  refine ⟨?_, ?_, ?_, ?_⟩
  · intro hstage
    unfold Launch.Gate at hgate
    split at hgate
    · exact ⟨hgate.2.handed, hgate.2.buffered⟩
    · exact ⟨hgate.2.2.handed, hgate.2.2.buffered⟩
    · exact absurd ‹_› hstage
  · intro hstage
    simp only [Launch.Gate, hstage] at hgate
    obtain ⟨hreg, hopened, hd⟩ := hgate
    refine ⟨hreg, hopened.buffered, ?_⟩
    intro hdrained
    rw [hd, hdrained, List.append_nil]
    exact perm_handedBy l
  · intro l₁ l₂ h₁ hstart hrun
    rw [drain_run h₁ hstart hrun]
    have hgate₁ := gate_reachable h₁
    cases hstart with
    | start hstage _ =>
      simp only [Launch.Gate, hstage] at hgate₁
      exact hgate₁.2.2.buffered.symm
  · intro t raw s hpost hjson
    cases hpost
    exact deliver_handing hjson

theorem launch_step {b : Launch.Action codec} (h : (launch codec methods).Reachable Free l)
    (hst : Launch.Step codec methods l b l') : (launch codec methods).Reachable Free l' :=
  h.step trivial hst

/-- A ping that comes before start() is handed over by start(). -/
theorem early_ping_handed_over : ∃ l : Launch pingCodec, l.delivered ≠ [] ∧
    (l.handed.map Prod.snd).Perm l.delivered := by
  have h₀ : (launch pingCodec ["ping"]).Reachable Free unmade := .initial rfl
  have h₁ := launch_step h₀ (.make rfl .onMessage)
  have h₂ := launch_step h₁ (.other (a := .post 0 pingText) nofun nofun (.post rfl))
  have h₃ := launch_step h₂ (.other (a := .handOver 0) nofun nofun (.handOver rfl))
  have h₄ := launch_step h₃ (.register rfl)
  have h₅ := launch_step h₄ (.start rfl .start)
  have h₆ := launch_step h₅ (.other (a := .startHand) nofun nofun (.startHand rfl))
  exact ⟨_, List.cons_ne_nil _ _, ((start_gate pingCodec ["ping"] _ h₆).2.1 rfl).2.2 rfl⟩

/-- A body that is not JSON is acknowledged, and nobody hands it over. -/
theorem garbage_not_handed_over : ∃ l l' : Launch pingCodec,
    (launch pingCodec []).Reachable Free l ∧ l.stage = .started ∧
    Launch.Step pingCodec [] l (.other (.post 0 "x")) l' ∧
    l'.transport.pc 0 = .responding accepted ∧ l'.transport.starting = [] ∧
    l'.transport.buffered = [] ∧ l'.handed = [] := by
  have h₀ : (launch pingCodec []).Reachable Free unmade := .initial rfl
  have h₁ := launch_step h₀ (.make rfl .onMessage)
  have h₂ := launch_step h₁ (.start rfl .start)
  exact ⟨_, _, h₂, rfl, .other nofun nofun (.post rfl), rfl, rfl, rfl, rfl⟩

end Mcp.Http.SessionTransport
