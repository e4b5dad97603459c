import Mcp.Session.Model

/-! The session is closed: by the peer, whose on_close callback drains `pending_` and then stores
`closed_`, or here, where `close()` stores `closed_` and then drains. -/
namespace Mcp.Session

open Transition

variable {V : Type} {opts : Options} {calls : ℕ → Call V} {s s' s'' : State V} {a : Action}
  {t u : Thread}

/-- In the on_close callback, after its drain and before its store. -/
def PC.unstored : PC → Prop
  | .rejecting _ _ .storingClosed => True
  | .storingClosed => True
  | _ => False

/-- In the on_close callback, after its store. -/
def PC.stored : PC → Prop
  | .firingClosed => True
  | .callingClosed _ => True
  | _ => False

/-- Nothing is parked, and nothing can be. -/
def Quiet (s : State V) : Prop := s.closed = true ∧ s.pending = ∅

/-- The peer closes, the application does not; `start()` has been called in time. -/
def Remote (s : State V) : Action → Prop
  | .startClear _ => s.closed = false
  | .closeCall _ => False
  | _ => True

/-- No request is parked between the drain and the store. -/
def Unbroken (s : State V) : Action → Prop
  | .startClear _ => s.closed = false
  | .park _ => s.closed = false → ∀ u, ¬ (s.pc u).unstored
  | _ => True

/-- `start()` does not take `closed_` back. -/
def NoStart (_ : State V) : Action → Prop
  | .startClear _ => False
  | _ => True

/-- No section but that of `register_pending` adds an entry. -/
theorem pending_empty_step (hs : Step opts calls s a s') (he : s.pending = ∅)
    (hpark : ∀ t, a = .park t → s.closed = true) : s'.pending = ∅ := by
  cases hs with
  | park _ => simp [State.park, hpark _ rfl, State.setPC, he]
  | pull _ => simp [State.pull, State.setPC, he]
  | response _ =>
    unfold State.takeResponse
    dsimp only
    split
    · exact he
    · simp [he]
  | timerSection _ =>
    unfold State.timeoutSection
    split <;> try split
    all_goals exact he
  | timerWake _ =>
    unfold State.timeoutSection
    split <;> try split
    all_goals exact he
  | timerExpire _ _ =>
    simp only [State.sweep, State.setPC, he]
    rfl
  | onClose _ | closeCancel _ => rfl
  | _ => exact he

/-- Only `start()` takes the flag back. -/
theorem closed_step (hs : Step opts calls s a s') (hc : s.closed = true)
    (hstart : ∀ t, a ≠ .startClear t) : s'.closed = true := by
  cases hs with
  | startClear _ => exact absurd rfl (hstart _)
  | park _ => exact (park_untouched ..).closed.trans hc
  | pull _ => exact (pull_untouched ..).closed.trans hc
  | response _ => exact (takeResponse_untouched ..).closed.trans hc
  | timerSection _ | timerWake _ => exact (timeoutSection_untouched s).closed.trans hc
  | onCloseStore _ | closeCall _ => rfl
  | _ => exact hc

/-- The gap is entered by the drain. -/
theorem unstored_step (hs : Step opts calls s a s') (hu : (s'.pc u).unstored) :
    (s.pc u).unstored ∨ s'.pending = ∅ := by
  rcases pc_enter hs hu with hu | hf
  · exact .inl hu
  · generalize s.pc u = p at hf ⊢
    generalize s'.pc u = q at hf hu
    cases hf with
    | onClose =>
      cases hs
      exact .inr rfl
    | @reject _ _ _ _ next =>
      cases next with
      | storingClosed => exact .inl trivial
      | idle | draining _ | locking => exact hu.elim
    | @rejected _ _ next =>
      cases next with
      | storingClosed => exact .inl trivial
      | idle | draining _ | locking => exact hu.elim
    | _ => exact hu.elim

/-- The gap is left by the store. -/
theorem stored_step (hs : Step opts calls s a s') (hu : (s'.pc u).stored) :
    (s.pc u).stored ∨ ((s.pc u).unstored ∧ s'.closed = true) := by
  rcases pc_enter hs hu with hu | hf
  · exact .inl hu
  · generalize s.pc u = p at hf ⊢
    generalize s'.pc u = q at hf hu
    cases hf with
    | onCloseStore =>
      cases hs
      exact .inr ⟨trivial, rfl⟩
    | onCloseFire => exact .inl trivial
    | @rejected _ _ next => cases next <;> exact hu.elim
    | _ => exact hu.elim

theorem quiet_step (hs : Step opts calls s a s') (hok : Unbroken s a) (hq : Quiet s) :
    Quiet s' := by
  constructor
  · refine closed_step hs hq.1 ?_
    rintro t rfl
    have hopen : s.closed = false := hok
    simp [hq.1] at hopen
  · exact pending_empty_step hs hq.2 (fun _ _ => hq.1)

theorem noStart_ne (hok : NoStart s a) (t : Thread) : a ≠ .startClear t := by
  rintro rfl
  exact hok

theorem closed_run (hrun : (machine opts calls).Run NoStart s s') (hc : s.closed = true) :
    s'.closed = true := by
  refine hrun.invariant (P := fun s => s.closed = true) ?_ hc
  intro s a s' hc hok hst
  exact closed_step hst hc (noStart_ne hok)

theorem quiet_run (hrun : (machine opts calls).Run NoStart s s') (hq : Quiet s) : Quiet s' := by
  refine hrun.invariant (P := Quiet) ?_ hq
  intro s a s' hq hok hst
  exact ⟨closed_step hst hq.1 (noStart_ne hok), pending_empty_step hst hq.2 fun _ _ => hq.1⟩

/-- The park section of a closed session rejects its own call. -/
theorem park_of_closed (hc : s.closed = true) {k : ℕ} {deadline : Int64}
    (hpc : s.pc u = .registering k deadline) (hst : Step opts calls s (.park u) s') :
    s' = s.setPC u (.rejecting [k] sessionClosed .idle) := by
  cases hst with
  | park hpc' =>
    cases hpc.symm.trans hpc'
    simp [State.park, hc]

/-- What the on_close callback has done so far still stands. -/
structure Drained (s : State V) : Prop where
  gap : ∀ u, (s.pc u).unstored → s.pending = ∅
  quiet : ∀ u, (s.pc u).stored → Quiet s

theorem drained_step (hs : Step opts calls s a s') (hok : Unbroken s a) (hd : Drained s) :
    Drained s' := by
  have hgap : ∀ u, (s.pc u).unstored → s'.pending = ∅ := by
    intro u hu
    refine pending_empty_step hs (hd.gap u hu) ?_
    rintro t rfl
    by_contra hopen
    exact hok (Bool.eq_false_of_not_eq_true hopen) u hu
  constructor
  · intro u hu
    rcases unstored_step hs hu with hu | he
    · exact hgap u hu
    · exact he
  · intro u hu
    rcases stored_step hs hu with hu | ⟨hu, hc⟩
    · exact quiet_step hs hok (hd.quiet u hu)
    · exact ⟨hc, hgap u hu⟩

theorem drained_reachable (h : (machine opts calls).Reachable Unbroken s) : Drained s := by
  refine h.invariant (P := Drained) ?_ (fun _ _ _ _ hd hok hst => drained_step hst hok hd)
  rintro s rfl
  constructor <;> intro u hu <;> cases u <;> exact hu.elim

/-- Once the callback has returned nothing is parked any more: every later call is rejected by its
own park section. -/
theorem no_orphan_after_on_close (h : (machine opts calls).Reachable Unbroken s)
    (hret : Step opts calls s (.onCloseReturn t) s')
    (hrun : (machine opts calls).Run Unbroken s' s'') :
    s''.pending = ∅ ∧ ∀ u k deadline, s''.pc u = .registering k deadline →
      ∀ s₃, Step opts calls s'' (.park u) s₃ →
        s₃ = s''.setPC u (.rejecting [k] sessionClosed .idle) := by
  have hq : Quiet s := by
    cases hret with
    | onCloseReturn hpc =>
      apply (drained_reachable h).quiet t
      rw [hpc]
      trivial
  have hq' : Quiet s' := quiet_step hret trivial hq
  have hq'' : Quiet s'' := by
    refine hrun.invariant (P := Quiet) ?_ hq'
    intro s a t hq hok hst
    exact quiet_step hst hok hq
  refine ⟨hq''.2, ?_⟩
  intro u k deadline hpc s₃ hst
  exact park_of_closed hq''.1 hpc hst

/-- After the peer has gone, a ping finds the session closed. -/
theorem late_ping_is_rejected : ∃ s s' : State Json, s.pending = ∅ ∧
    Step {} (fun _ => ping) s (.park (.app 1)) s' ∧
      s' = s.setPC (.app 1) (.rejecting [0] sessionClosed .idle) := by
  have h₀ : (machine {} (fun _ => ping)).Reachable Unbroken (fresh Json) := .initial rfl
  have h₁ := reachable_step (a := .onClose (.app 0)) h₀ trivial (.onClose rfl)
  have h₂ := reachable_step (a := .rejected (.app 0)) h₁ trivial (.rejected rfl)
  have h₃ := reachable_step (a := .onCloseStore (.app 0)) h₂ trivial (.onCloseStore rfl)
  have h₄ := reachable_step (a := .onCloseFire (.app 0)) h₃ trivial (.onCloseFire rfl)
  obtain ⟨he, hpark⟩ := no_orphan_after_on_close (t := .app 0) h₄ (.onCloseReturn rfl)
    (.step (a := .nextId (.app 1) 0) .refl trivial (.nextId rfl))
  exact ⟨_, _, he, .park rfl, hpark _ _ _ rfl _ (.park rfl)⟩

/-- One ping parked between the drain and the store stays behind when the callback has returned,
and the timer thread has exited. -/
theorem ping_is_orphaned : ∃ s s' s'' : State Json,
    (machine {} (fun _ => ping)).Reachable Remote s ∧
    Step {} (fun _ => ping) s (.onCloseReturn (.app 2)) s' ∧
    (machine {} (fun _ => ping)).Run Remote s' s'' ∧
    requestId 0 ∈ s''.pending ∧ s''.pc .timer = .exited ∧ s''.settled = [] := by
  have h₀ : (machine {} (fun _ => ping)).Reachable Remote (fresh Json) := .initial rfl
  have h₁ := reachable_step (a := .startClaim (.app 0)) h₀ trivial (.startClaim rfl rfl)
  have h₂ := reachable_step (a := .startClear (.app 0)) h₁ rfl (.startClear rfl)
  have h₃ := reachable_step (a := .startTimer (.app 0)) h₂ trivial (.startTimer rfl rfl)
  have h₄ := reachable_step (a := .startTransport (.app 0)) h₃ trivial (.startTransport rfl)
  have h₅ := reachable_step (a := .nextId (.app 1) 0) h₄ trivial (.nextId rfl)
  have h₆ := reachable_step (a := .onClose (.app 2)) h₅ trivial (.onClose rfl)
  have h₇ := reachable_step (a := .park (.app 1)) h₆ trivial (.park rfl)
  have h₈ := reachable_step (a := .rejected (.app 2)) h₇ trivial (.rejected rfl)
  have h₉ := reachable_step (a := .onCloseStore (.app 2)) h₈ trivial (.onCloseStore rfl)
  have h₁₀ := reachable_step (a := .onCloseFire (.app 2)) h₉ trivial (.onCloseFire rfl)
  exact ⟨_, _, _, h₁₀, .onCloseReturn rfl, .step (a := .timerSection) .refl trivial
    (.timerSection rfl), by decide, rfl, rfl⟩

/-- Once a `close()` has swapped the map out nothing is parked any more: `closed_` was stored
before, and every later call is rejected by its own park section. -/
theorem no_orphan_after_close {s₀ s₁ s₂ s₃ : State V}
    (hcall : Step opts calls s₀ (.closeCall t) s₁)
    (hbefore : (machine opts calls).Run NoStart s₁ s₂)
    (hswap : Step opts calls s₂ (.closeCancel t) s₃)
    (hafter : (machine opts calls).Run NoStart s₃ s) :
    s.pending = ∅ ∧ ∀ u k deadline, s.pc u = .registering k deadline →
      ∀ s', Step opts calls s (.park u) s' →
        s' = s.setPC u (.rejecting [k] sessionClosed .idle) := by
  have hc : s₁.closed = true := by
    cases hcall
    rfl
  have hc' : s₂.closed = true := closed_run hbefore hc
  have hq : Quiet s₃ := by
    refine ⟨closed_step hswap hc' (by simp), ?_⟩
    cases hswap
    rfl
  have hq' : Quiet s := quiet_run hafter hq
  exact ⟨hq'.2, fun u k deadline hpc s' hst => park_of_closed hq'.1 hpc hst⟩

/-- A ping that got its id before the `close()` of another thread, and parks after it. -/
theorem registering_ping_is_rejected : ∃ s s' : State Json,
    (machine {} (fun _ => ping)).Reachable Free s ∧ s.pending = ∅ ∧
    Step {} (fun _ => ping) s (.park (.app 1)) s' ∧
      s' = s.setPC (.app 1) (.rejecting [0] sessionClosed .idle) := by
  have h₀ : (machine {} (fun _ => ping)).Reachable Free (fresh Json) := .initial rfl
  have h₁ := reachable_step (a := .nextId (.app 1) 0) h₀ trivial (.nextId rfl)
  have h₂ := reachable_step (a := .closeCall (.app 0)) h₁ trivial (.closeCall rfl)
  have h₃ := reachable_step (a := .closeCancel (.app 0)) h₂ trivial (.closeCancel rfl)
  have hcall : Step {} (fun _ => ping) ({ fresh Json with issued := 1 }.setPC (.app 1)
      (.registering 0 (deadlineOf {} 0 0))) (.closeCall (.app 0)) _ := .closeCall rfl
  obtain ⟨he, hpark⟩ := no_orphan_after_close hcall .refl (.closeCancel rfl)
    (.step (a := .rejected (.app 0)) .refl trivial (.rejected rfl))
  have h₄ := reachable_step (a := .rejected (.app 0)) h₃ trivial (.rejected rfl)
  exact ⟨_, _, h₄, he, .park rfl, hpark _ _ _ rfl _ (.park rfl)⟩

end Mcp.Session
