import Mcp.Library.Crowd
import Mcp.Session.Model

/-! `workers_running_` counts the request workers, and close() waits for it. -/
namespace Mcp.Session

open Transition

variable {V : Type} {opts : Options} {calls : ℕ → Call V} {s s' s'' : State V} {a : Action}
  {t u : Thread}

/-- In handle_frame, with a worker counted and not yet started. -/
def PC.spawning : PC → Prop
  | .spawningWorker => True
  | _ => False

abbrev Spawning (s : State V) (t : Thread) : Prop := (s.pc t).spawning

/-- In close(), past the wait for the workers. -/
def PC.pastDrain : PC → Prop
  | .closingTransport _ => True
  | .notifying => True
  | .joining => True
  | _ => False

/-- In close(), past the call of the transport's close(). -/
def PC.pastTransport : PC → Prop
  | .notifying => True
  | .joining => True
  | _ => False

/-- In close(), as a later caller who leaves the transport alone. -/
def PC.second : PC → Prop
  | .cancelling first => first = false
  | .rejecting _ _ (.draining first) => first = false
  | .draining first => first = false
  | .closingTransport first => first = false
  | _ => False

/-- One close() on an open session, over a transport whose close() returns once its read thread
has delivered its last frame. -/
def Delivered (s : State V) : Action → Prop
  | .dispatch _ => s.transportClosed = false
  | .closeTransport _ => ∀ u, ¬ Spawning s u
  | .closeCall _ => s.closed = false
  | _ => True

/-- No request frame arrives while close() is past its wait. -/
def Drains (s : State V) (a : Action) : Prop :=
  Delivered s a ∧ ∀ t, a = .dispatch t → ∀ u, ¬ (s.pc u).pastDrain

/-- Every worker, running or about to be started, is counted. -/
structure Counted (s : State V) : Prop where
  live_le : s.live ≤ s.workersRunning
  spawning : Crowd.AtMost (Spawning s) (s.workersRunning - s.live)

/-- Only the dispatch of a request, its worker and the worker's end touch the counts. -/
theorem counts_step (hs : Step opts calls s a s') (hd : ∀ t, a ≠ .dispatch t)
    (hp : ∀ t, a ≠ .spawn t) (hw : a ≠ .workerDone) :
    s'.workersRunning = s.workersRunning ∧ s'.live = s.live := by
  cases hs with
  | dispatch _ => exact absurd rfl (hd _)
  | spawn _ => exact absurd rfl (hp _)
  | workerDone _ => exact absurd rfl hw
  | park _ => exact ⟨(park_untouched ..).workersRunning, (park_untouched ..).live⟩
  | pull _ => exact ⟨(pull_untouched ..).workersRunning, (pull_untouched ..).live⟩
  | response _ =>
    exact ⟨(takeResponse_untouched ..).workersRunning, (takeResponse_untouched ..).live⟩
  | timerSection _ | timerWake _ =>
    exact ⟨(timeoutSection_untouched s).workersRunning, (timeoutSection_untouched s).live⟩
  | _ => exact ⟨rfl, rfl⟩

/-- The transport never reopens. -/
theorem transportClosed_step (hs : Step opts calls s a s') (hc : s.transportClosed = true) :
    s'.transportClosed = true := by
  cases hs with
  | park _ => exact (park_untouched ..).transportClosed.trans hc
  | pull _ => exact (pull_untouched ..).transportClosed.trans hc
  | response _ => exact (takeResponse_untouched ..).transportClosed.trans hc
  | timerSection _ | timerWake _ => exact (timeoutSection_untouched s).transportClosed.trans hc
  | closeTransport _ => simp [State.setPC, hc]
  | _ => exact hc

theorem spawning_step (hs : Step opts calls s a s') (hd : ∀ t, a ≠ .dispatch t)
    (hu : Spawning s' u) : Spawning s u := by
  unfold Spawning at hu ⊢
  rcases pc_enter hs hu with hu | hf
  · exact hu
  · generalize s.pc u = p at hf ⊢
    generalize s'.pc u = q at hf hu
    cases hf with
    | dispatch => exact absurd rfl (hd _)
    | @rejected _ _ next => cases next <;> exact hu.elim
    | _ => exact hu.elim

theorem counted_step (hs : Step opts calls s a s') (hc : Counted s) : Counted s' := by
  have hle := hc.live_le
  by_cases ha : (∀ t, a ≠ .dispatch t) ∧ (∀ t, a ≠ .spawn t) ∧ a ≠ .workerDone
  · obtain ⟨hd, hp, hw⟩ := ha
    obtain ⟨hr, hl⟩ := counts_step hs hd hp hw
    constructor
    · omega
    · rw [hr, hl]
      exact hc.spawning.mono (fun u hu => spawning_step hs hd hu) le_rfl
  · cases hs with
    | @dispatch t hpc =>
      constructor
      · simp only [State.setPC]
        omega
      · refine (hc.spawning.enter (t := t) ?_).mono (fun _ => id) ?_
        · intro u hne hu
          simpa [Spawning, hne] using hu
        · simp only [State.setPC]
          omega
    | @spawn t hpc =>
      have ht : Spawning s t := by simp [Spawning, hpc, PC.spawning]
      have hpos := hc.spawning.pos ht
      constructor
      · simp only [State.setPC]
        omega
      · refine (hc.spawning.leave ht ?_).mono (fun _ => id) ?_
        · intro u hu
          by_cases he : u = t
          · subst u
            simp [PC.spawning] at hu
          · exact ⟨he, by simpa [Spawning, he] using hu⟩
        · simp only [State.setPC]
          omega
    | workerDone hlive =>
      constructor
      · dsimp only
        omega
      · exact hc.spawning.mono (fun _ => id) (by dsimp only; omega)
    | _ => simp at ha

theorem pastDrain_step (hs : Step opts calls s a s') (hu : (s'.pc u).pastDrain) :
    (s.pc u).pastDrain ∨ s'.workersRunning = 0 := by
  rcases pc_enter hs hu with hu | hf
  · exact .inl hu
  · generalize s.pc u = p at hf ⊢
    generalize s'.pc u = q at hf hu
    cases hf with
    | closeDrained =>
      cases hs with
      | closeDrained _ hz => exact .inr hz
    | closeTransport | closeNotify => exact .inl trivial
    | @rejected _ _ next => cases next <;> exact hu.elim
    | _ => exact hu.elim

theorem pastTransport_step (hs : Step opts calls s a s') (hu : (s'.pc u).pastTransport) :
    (s.pc u).pastTransport ∨ (s.pc u).second ∨ s'.transportClosed = true := by
  rcases pc_enter hs hu with hu | hf
  · exact .inl hu
  · generalize hp : s.pc u = p at hf ⊢
    generalize s'.pc u = q at hf hu
    cases hf with
    | @closeTransport _ first =>
      cases hs with
      | closeTransport hpc =>
        cases hp.symm.trans hpc
        cases first with
        | false => exact .inr (.inl rfl)
        | true => exact .inr (.inr (by simp [State.setPC]))
    | closeNotify => exact .inl trivial
    | @rejected _ _ next => cases next <;> exact hu.elim
    | _ => exact hu.elim

/-- A close() that leaves the transport alone has found `closed_` set. -/
theorem second_enter (hs : Step opts calls s a s') (hu : (s'.pc u).second) :
    (s.pc u).second ∨ a = .closeCall u ∧ s.closed = true := by
  rcases pc_enter hs hu with hu | hf
  · exact .inl hu
  · generalize s.pc u = p at hf ⊢
    generalize hq : s'.pc u = q at hf hu
    cases hf with
    | closeCall =>
      cases hs with
      | closeCall _ =>
        simp only [setPC_pc, Function.update_self, PC.cancelling.injEq] at hq
        refine .inr ⟨rfl, ?_⟩
        simpa [PC.second, ← hq] using hu
    | closeCancel | closeDrained => exact .inl hu
    | @reject _ _ _ _ next | @rejected _ _ next =>
      cases next with
      | draining first => exact .inl hu
      | idle | storingClosed | locking => exact hu.elim
    | _ => exact hu.elim

theorem second_step (hs : Step opts calls s a s') (hok : Delivered s a)
    (hu : (s'.pc u).second) : (s.pc u).second := by
  rcases second_enter hs hu with hu | ⟨rfl, hclosed⟩
  · exact hu
  · have hopen : s.closed = false := hok
    simp [hclosed] at hopen

/-- What close() relies on at each of its stages. -/
structure Orderly (s : State V) : Prop where
  counted : Counted s
  drained : ∀ u, (s.pc u).pastDrain → s.workersRunning = 0
  first : ∀ u, ¬ (s.pc u).second
  transport : ∀ u, (s.pc u).pastTransport → s.transportClosed = true

/-- With nobody counted and no dispatch, nobody gets counted. -/
theorem workersRunning_zero_step (hs : Step opts calls s a s') (hc : Counted s)
    (hd : ∀ t, a ≠ .dispatch t) (hz : s.workersRunning = 0) : s'.workersRunning = 0 := by
  have hle := hc.live_le
  by_cases hw : a = .workerDone
  · subst hw
    cases hs
    omega
  · by_cases hp : ∃ t, a = .spawn t
    · obtain ⟨t, rfl⟩ := hp
      cases hs
      exact hz
    · have hp' : ∀ t, a ≠ .spawn t := fun t he => hp ⟨t, he⟩
      rw [(counts_step hs hd hp' hw).1, hz]

theorem orderly_step (hs : Step opts calls s a s') (hok : Drains s a) (ho : Orderly s) :
    Orderly s' := by
  refine ⟨counted_step hs ho.counted, ?_, ?_, ?_⟩
  · intro u hu
    rcases pastDrain_step hs hu with hu | hz
    · refine workersRunning_zero_step hs ho.counted ?_ (ho.drained u hu)
      intro t he
      exact hok.2 t he u hu
    · exact hz
  · intro u hu
    exact ho.first u (second_step hs hok.1 hu)
  · intro u hu
    rcases pastTransport_step hs hu with hu | hu | hc
    · exact transportClosed_step hs (ho.transport u hu)
    · exact absurd hu (ho.first u)
    · exact hc

theorem orderly_fresh : Orderly (fresh V) := by
  have hpc : ∀ u, (fresh V).pc u = .unborn ∨ (fresh V).pc u = .idle := by
    intro u
    cases u with
    | timer => exact .inl rfl
    | app _ => exact .inr rfl
  refine ⟨⟨le_rfl, Crowd.AtMost.none ?_⟩, ?_, ?_, ?_⟩
  all_goals
    intro u
    rcases hpc u with h | h <;>
      simp [h, Spawning, PC.spawning, PC.pastDrain, PC.second, PC.pastTransport]

theorem orderly_reachable (h : (machine opts calls).Reachable Drains s) : Orderly s := by
  refine h.invariant (P := Orderly) ?_ (fun _ _ _ _ ho hok hst => orderly_step hst hok ho)
  rintro s rfl
  exact orderly_fresh

/-- No worker runs, none is about to start, and none can be asked for. -/
structure Idle (s : State V) : Prop where
  counted : Counted s
  none : s.workersRunning = 0
  closed : s.transportClosed = true

theorem idle_step (hs : Step opts calls s a s') (hok : Delivered s a) (hi : Idle s) : Idle s' := by
  refine ⟨counted_step hs hi.counted, ?_, transportClosed_step hs hi.closed⟩
  refine workersRunning_zero_step hs hi.counted ?_ hi.none
  rintro t rfl
  have hopen : s.transportClosed = false := hok
  simp [hi.closed] at hopen

/-- When close() returns no request worker is left, and none comes after it. -/
theorem no_worker_after_close (h : (machine opts calls).Reachable Drains s)
    (hret : Step opts calls s (.closeReturn t) s')
    (hrun : (machine opts calls).Run Drains s' s'') :
    s''.workersRunning = 0 ∧ s''.live = 0 ∧ ∀ u, ¬ Spawning s'' u := by
  have ho := orderly_reachable h
  have hi : Idle s := by
    cases hret with
    | closeReturn hpc _ =>
      refine ⟨ho.counted, ho.drained t ?_, ho.transport t ?_⟩ <;> rw [hpc] <;> trivial
  have hi' : Idle s' := idle_step hret trivial hi
  have hi'' : Idle s'' := by
    refine hrun.invariant (P := Idle) ?_ hi'
    intro s a t hi hok hst
    exact idle_step hst hok.1 hi
  have hle := hi''.counted.live_le
  have hz := hi''.none
  refine ⟨hz, by omega, ?_⟩
  intro u hu
  have hpos := hi''.counted.spawning.pos hu
  omega

/-- A session that has been started, with one worker running: close() waits for it. -/
theorem close_waits_for_worker : ∃ s : State Json, s.workersRunning = 0 ∧ s.live = 0 := by
  have h₀ : (machine {} (fun _ => ping)).Reachable Drains (fresh Json) := .initial rfl
  have h₁ := reachable_step (a := .startClaim (.app 0)) h₀ ⟨trivial, nofun⟩ (.startClaim rfl rfl)
  have h₂ := reachable_step (a := .startClear (.app 0)) h₁ ⟨trivial, nofun⟩ (.startClear rfl)
  have h₃ := reachable_step (a := .startTimer (.app 0)) h₂ ⟨trivial, nofun⟩ (.startTimer rfl rfl)
  have h₄ := reachable_step (a := .startTransport (.app 0)) h₃ ⟨trivial, nofun⟩
    (.startTransport rfl)
  have h₅ := reachable_step (a := .dispatch (.app 1)) h₄
    ⟨rfl, fun _ _ u => by rcases u with _ | _ | n <;> exact id⟩ (.dispatch rfl)
  have h₆ := reachable_step (a := .spawn (.app 1)) h₅ ⟨trivial, nofun⟩ (.spawn rfl)
  have h₇ := reachable_step (a := .closeCall (.app 0)) h₆ ⟨rfl, nofun⟩ (.closeCall rfl)
  have h₈ := reachable_step (a := .closeCancel (.app 0)) h₇ ⟨trivial, nofun⟩ (.closeCancel rfl)
  have h₉ := reachable_step (a := .rejected (.app 0)) h₈ ⟨trivial, nofun⟩ (.rejected rfl)
  have h₁₀ := reachable_step (a := .workerDone) h₉ ⟨trivial, nofun⟩ (.workerDone Nat.one_pos)
  have h₁₁ := reachable_step (a := .closeDrained (.app 0)) h₁₀ ⟨trivial, nofun⟩
    (.closeDrained rfl rfl)
  have h₁₂ := reachable_step (a := .closeTransport (.app 0)) h₁₁
    ⟨fun u => by rcases u with _ | _ | _ | n <;> exact id, nofun⟩ (.closeTransport rfl)
  have h₁₃ := reachable_step (a := .closeNotify (.app 0)) h₁₂ ⟨trivial, nofun⟩ (.closeNotify rfl)
  have h₁₄ := reachable_step (a := .timerSection) h₁₃ ⟨trivial, nofun⟩ (.timerSection rfl)
  obtain ⟨hz, hl, -⟩ := no_worker_after_close (t := .app 0) h₁₄ (.closeReturn rfl (.inr rfl)) .refl
  exact ⟨_, hz, hl⟩

/-- A frame that arrives between the wait and the transport's close() leaves a worker running. -/
theorem worker_outlives_close : ∃ s s' : State Json,
    (machine {} (fun _ => ping)).Reachable Delivered s ∧
    Step {} (fun _ => ping) s (.closeReturn (.app 0)) s' ∧
    s'.workersRunning = 1 ∧ s'.live = 1 := by
  have h₀ : (machine {} (fun _ => ping)).Reachable Delivered (fresh Json) := .initial rfl
  have h₁ := reachable_step (a := .startClaim (.app 0)) h₀ trivial (.startClaim rfl rfl)
  have h₂ := reachable_step (a := .startClear (.app 0)) h₁ trivial (.startClear rfl)
  have h₃ := reachable_step (a := .startTimer (.app 0)) h₂ trivial (.startTimer rfl rfl)
  have h₄ := reachable_step (a := .startTransport (.app 0)) h₃ trivial (.startTransport rfl)
  have h₅ := reachable_step (a := .closeCall (.app 0)) h₄ rfl (.closeCall rfl)
  have h₆ := reachable_step (a := .closeCancel (.app 0)) h₅ trivial (.closeCancel rfl)
  have h₇ := reachable_step (a := .rejected (.app 0)) h₆ trivial (.rejected rfl)
  have h₈ := reachable_step (a := .closeDrained (.app 0)) h₇ trivial (.closeDrained rfl rfl)
  have h₉ := reachable_step (a := .dispatch (.app 1)) h₈ rfl (.dispatch rfl)
  have h₁₀ := reachable_step (a := .spawn (.app 1)) h₉ trivial (.spawn rfl)
  have h₁₁ := reachable_step (a := .closeTransport (.app 0)) h₁₀
    (fun u => by rcases u with _ | _ | _ | n <;> exact id) (.closeTransport rfl)
  have h₁₂ := reachable_step (a := .closeNotify (.app 0)) h₁₁ trivial (.closeNotify rfl)
  have h₁₃ := reachable_step (a := .timerSection) h₁₂ trivial (.timerSection rfl)
  exact ⟨_, _, h₁₃, .closeReturn rfl (.inr rfl), rfl, rfl⟩

end Mcp.Session
