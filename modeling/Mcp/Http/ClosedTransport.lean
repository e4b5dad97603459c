import Mcp.Http.CrossTalk

/-! What close() puts an end to, and the POST handlers that still hold the transport. -/
namespace Mcp.Http.SessionTransport

open Transition

variable {codec : Codec} {s s' : State codec} {a : Action codec} {t : ℕ}

/-- close() has drained `pending_`. -/
def Returned (s : State codec) : Prop := s.closed = true ∧ s.draining = false

/-- A POST has passed the section of `pending_mu_` and not yet handed its frame over. -/
def Handing (s : State codec) : Prop := ∃ t f, s.pc t = .handing f

/-- The step calls `on_message_`. -/
def Invokes (s : State codec) : Action codec → Prop
  | .handOver _ => s.started = true ∧ s.listening = true
  | .startHand => True
  | _ => False

/-- close() and the handlers do not overlap: it returns between two hand-overs, and afterwards no
POST delivers to the transport and start() finds nothing to hand over. -/
def Apart (s : State codec) : Action codec → Prop
  | .post _ raw => Returned s → ∀ j, codec.parse raw = some j →
      s.started = false ∧ (hasId j && j.contains "method") = false
  | .drain => s.starting = [] ∧ (s.started = true → ¬ Handing s)
  | .start => Returned s → s.buffered = [] ∧ ¬ Handing s
  | _ => True

/-- Nobody waits for a reply, and nobody is about to call `on_message_`. -/
structure Sealed (s : State codec) : Prop where
  pending : s.pending = ∅
  starting : s.starting = []
  handing : s.started = true → ¬ Handing s

theorem handing_update {pc : PC codec} (h : ¬ Handing s)
    (hpc : s'.pc = Function.update s.pc t pc) (hne : ∀ f, pc ≠ .handing f) : ¬ Handing s' := by
  rintro ⟨u, f, hu⟩
  rw [hpc] at hu
  rcases update_cases hu with ⟨-, hmine⟩ | ⟨-, hu⟩
  · exact hne f hmine
  · exact h ⟨u, f, hu⟩

/-- A thread moves on and has no frame in hand. -/
theorem sealed_pc {pc : PC codec} (h : Sealed s) (hp : s'.pending = ∅)
    (hst : s'.starting = s.starting) (hstarted : s'.started = s.started)
    (hpc : s'.pc = Function.update s.pc t pc) (hne : ∀ f, pc ≠ .handing f) : Sealed s' := by
  refine ⟨hp, hst.trans h.starting, ?_⟩
  rw [hstarted]
  exact fun hs => handing_update (h.handing hs) hpc hne

/-- Nothing is sent to an awaiter that is not there. -/
theorem send_of_empty (he : s.pending = ∅) (frame : String) :
    ∃ getQueue, s.send frame = { s with getQueue := getQueue } := by
  unfold State.send
  split
  · exact ⟨_, rfl⟩
  · rename_i j _
    split
    · have hnone : s.pending.lookup (keyOf j) = none := by simp [he]
      rw [hnone]
      exact ⟨s.getQueue, rfl⟩
    · exact ⟨_, rfl⟩

theorem returned_step (hs : Step codec s a s') (h : Returned s) : Returned s' := by
  obtain ⟨hc, hd⟩ := h
  cases hs with
  | @startHand f fs _ =>
    obtain ⟨owed, he⟩ := take_frame { s with starting := fs } f
    rw [he]
    exact ⟨hc, hd⟩
  | @post t raw _ =>
    unfold State.deliver
    split <;> try split
    all_goals exact ⟨hc, hd⟩
  | @handOver t f _ =>
    obtain ⟨owed, buffered, he⟩ := handOver_frame s f
    rw [he]
    exact ⟨hc, hd⟩
  | @route t p id m _ | @push t m _ =>
    obtain ⟨pending, settled, getQueue, he⟩ := send_frame s m.frame
    rw [he]
    exact ⟨hc, hd⟩
  | close hopen => simp [hc] at hopen
  | drain hdr => simp [hd] at hdr
  | _ => exact ⟨hc, hd⟩

/-- close() returns at the drain and at no other step. -/
theorem returned_origin (hs : Step codec s a s') (h : Returned s') : Returned s ∨ a = .drain := by
  cases hs with
  | @startHand f fs _ =>
    obtain ⟨owed, he⟩ := take_frame { s with starting := fs } f
    rw [he] at h
    exact .inl h
  | @post t raw _ =>
    unfold State.deliver at h
    split at h <;> try split at h
    all_goals exact .inl h
  | @handOver t f _ =>
    obtain ⟨owed, buffered, he⟩ := handOver_frame s f
    rw [he] at h
    exact .inl h
  | @route t p id m _ | @push t m _ =>
    obtain ⟨pending, settled, getQueue, he⟩ := send_frame s m.frame
    rw [he] at h
    exact .inl h
  | close _ => cases h.2
  | drain _ => exact .inr rfl
  | _ => exact .inl h

theorem sealed_post {raw : String} (hok : Apart s (.post t raw)) (hr : Returned s)
    (h : Sealed s) : Sealed (s.deliver t raw) := by
  unfold State.deliver
  split
  · exact sealed_pc h h.pending rfl rfl rfl nofun
  · rename_i j hj
    obtain ⟨hstarted, hreq⟩ := hok hr j hj
    rw [if_neg (by simp [hreq])]
    refine ⟨h.pending, h.starting, ?_⟩
    intro hs
    exact absurd (hstarted.symm.trans hs) (by simp)

theorem sealed_step (hs : Step codec s a s') (hok : Apart s a) (hr : Returned s) (h : Sealed s) :
    Sealed s' := by
  cases hs with
  | start =>
    obtain ⟨hbuffered, hnone⟩ := hok hr
    refine ⟨h.pending, ?_, fun _ => hnone⟩
    simp [hbuffered, h.starting]
  | startHand hst => simp [h.starting] at hst
  | post _ => exact sealed_post hok hr h
  | @handOver t f hpc =>
    have hstopped : s.started = false := by
      by_contra hs
      exact h.handing (Bool.eq_true_of_not_eq_false hs) ⟨t, f, hpc⟩
    obtain ⟨owed, buffered, he⟩ := handOver_frame s f
    rw [he]
    refine ⟨h.pending, h.starting, ?_⟩
    intro hs
    exact absurd (hstopped.symm.trans hs) (by simp)
  | reply _ _ | timeOut _ | respond _ => exact sealed_pc h h.pending rfl rfl rfl nofun
  | answer _ _ | emit _ =>
    refine sealed_pc h h.pending rfl rfl rfl ?_
    intro f
    split <;> nofun
  | @route t p id m _ | @push t m _ =>
    obtain ⟨getQueue, he⟩ := send_of_empty h.pending m.frame
    rw [he]
    exact sealed_pc h h.pending rfl rfl rfl nofun
  | drain _ => exact ⟨rfl, h.starting, h.handing⟩
  | _ => exact ⟨h.pending, h.starting, h.handing⟩

theorem sealed_reachable (h : (machine codec).Reachable Apart s) (hr : Returned s) : Sealed s := by
  refine h.invariant (P := fun s => Returned s → Sealed s) ?_ ?_ hr
  · rintro s rfl hr
    cases hr.1
  · intro s a s' _ hsealed hok hst hr'
    rcases returned_origin hst hr' with hr | rfl
    · exact sealed_step hst hok hr (hsealed hr)
    · cases hst with
      | drain _ => exact ⟨rfl, hok.1, hok.2⟩

/-- Nobody is left to call `on_message_`. -/
theorem not_invokes_of_sealed (h : Sealed s) (hs : Step codec s a s') : ¬ Invokes s a := by
  cases hs with
  | startHand hst => simp [h.starting] at hst
  | @handOver t f hpc =>
    rintro ⟨hstarted, -⟩
    exact h.handing hstarted ⟨t, f, hpc⟩
  | _ => exact id

/-- While close() and the handlers do not overlap, a transport whose close() has returned keeps no
POST waiting and never calls `on_message_` again. -/
theorem closed_transport_stays_closed (codec : Codec) (s s' : State codec)
    (h : (machine codec).Reachable Apart s) (hr : Returned s)
    (hrun : (machine codec).Run Apart s s') :
    s'.pending = ∅ ∧ ∀ a s'', Step codec s' a s'' → ¬ Invokes s' a := by
  have hr' : Returned s' :=
    hrun.invariant (P := Returned) (fun _ _ _ hr _ hst => returned_step hst hr) hr
  have hsealed := sealed_reachable (h.run hrun) hr'
  exact ⟨hsealed.pending, fun a s'' hs => not_invokes_of_sealed hsealed hs⟩

/-- close() has begun, and the POST of a ping waits for its reply. -/
def closing : State pingCodec :=
  { ready.enlist 0 "i:1" ping.id with closed := true, draining := true }

theorem closing_reachable : (machine pingCodec).Reachable Apart closing := by
  have hping : pingCodec.parse pingText = some (pingWith (.unsigned 1)) := rfl
  have h₀ : (machine pingCodec).Reachable Apart fresh := .initial rfl
  have h₁ := reachable_step (a := .onMessage) h₀ trivial .onMessage
  have h₂ : (machine pingCodec).Reachable Apart ready :=
    reachable_step (a := .start) h₁ (fun hr => by cases hr.1) .start
  have h₃ := reachable_enlist (t := 0) h₂ rfl rfl hping parse_ping (fun hr => by cases hr.1)
    fun _ => trivial
  exact reachable_step (a := .close) h₃ trivial (.close rfl)

/-- close() has drained it. -/
def told : State pingCodec := { closing with
  draining := false
  pending := ∅
  settled := [(0, .error sessionClosed)] }

/-- The drain tells the waiting POST; another POST, whose body is not JSON, comes behind close(). -/
theorem waiting_ping_is_closed : ∃ s : State pingCodec, closing.pc 0 = .waiting 0 ∧
    closing.pending.lookup "i:1" = some 0 ∧ Step pingCodec closing .drain told ∧ Returned told ∧
    (machine pingCodec).Run Apart told s ∧
    s.pc 0 = .responding (response (.error sessionClosed)) ∧ s.pc 1 = .responding accepted ∧
    s.pending = ∅ ∧ ∀ a s', Step pingCodec s a s' → ¬ Invokes s a := by
  have hhanding : ¬ Handing closing := by
    rintro ⟨t, f, hpc⟩
    rcases update_cases hpc with ⟨-, he⟩ | ⟨-, he⟩ <;> cases he
  have hdrain : Step pingCodec closing .drain told := .drain rfl
  have hreach := reachable_step (a := .drain) closing_reachable ⟨rfl, fun _ => hhanding⟩ hdrain
  have hreply : Step pingCodec told (.reply 0) _ := .reply rfl (List.mem_singleton_self _)
  have hrefl : (machine pingCodec).Run Apart told told := .refl
  have hreplied := hrefl.step (show Apart told (.reply 0) from trivial) hreply
  have hpost : Apart (told.setPC 0 (.responding (response (.error sessionClosed))))
      (.post 1 "x") := fun _ _ hj => by cases hj
  have hrun := hreplied.step hpost (.post rfl)
  obtain ⟨hp, hno⟩ := closed_transport_stays_closed pingCodec _ _ hreach ⟨rfl, rfl⟩ hrun
  exact ⟨_, rfl, by decide, hdrain, ⟨rfl, rfl⟩, hrun, rfl, rfl, hp, hno⟩

/-- A transport that has been wired, started and closed. -/
def drained : State pingCodec := { ready with closed := true }

/-- A POST that has the session in hand when close() returns, and delivers a ping afterwards: its
slot is filed in the closed transport, and `on_message_` is called. -/
theorem ping_reaches_closed_transport : ∃ s s₁ s₂ : State pingCodec,
    (machine pingCodec).Reachable Free s ∧ Returned s ∧ s.pc 0 = .idle ∧
    Step pingCodec s (.post 0 pingText) s₁ ∧ s₁.pending.lookup "i:1" = some 0 ∧
    Invokes s₁ (.handOver 0) ∧ Step pingCodec s₁ (.handOver 0) s₂ ∧
    s₂.owed 0 = some ping.id ∧ s₂.pc 0 = .waiting 0 ∧ s₂.pending.lookup "i:1" = some 0 := by
  have h₁ := reachable_step (a := .close) ready_reachable trivial (.close rfl)
  have hreach : (machine pingCodec).Reachable Free drained :=
    reachable_step (a := .drain) h₁ trivial (.drain rfl)
  have hpost : Step pingCodec drained (.post 0 pingText) (drained.deliver 0 pingText) := .post rfl
  rw [deliver_request (j := pingWith (.unsigned 1)) rfl parse_ping] at hpost
  have hhand := @Step.handOver pingCodec
    ((drained.register (keyOf (pingWith (.unsigned 1)))).setPC 0
      (.handing { raw := pingText, reply := some 0 })) 0 _ rfl
  rw [handOver_request (j := pingWith (.unsigned 1)) rfl parse_ping rfl] at hhand
  exact ⟨_, _, _, hreach, ⟨rfl, rfl⟩, rfl, hpost, by decide, ⟨rfl, rfl⟩, hhand, rfl, rfl,
    by decide⟩

end Mcp.Http.SessionTransport
