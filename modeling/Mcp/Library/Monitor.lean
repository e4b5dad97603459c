import Mcp.Library.Fairness

/-! Sections under a mutex, the condition variables they notify, and the threads that wait until a
condition holds. -/

open Transition

/-- What a mutex guards, the sections under it, and the conditions that are waited for. -/
structure Monitor (Shared Op Cv Wait : Type*) where
  start : Shared
  run : Shared → Op → Shared
  /-- What the section notifies while it still holds the mutex. -/
  inside : Shared → Op → Option Cv
  /-- What its thread notifies next, the mutex given up. -/
  after : Shared → Op → Option Cv
  cv : Wait → Cv
  ready : Wait → Shared → Bool
  /-- The wait is for a limited time. -/
  timed : Wait → Bool

namespace Monitor

variable {Shared Op Cv Wait : Type*}

/-- What a thread does next. -/
inductive PC (Shared Cv Wait : Type*) where
  | idle
  | asleep (w : Wait)
  -- out of the queue, about to test its condition
  | awake (w : Wait)
  | owing (c : Cv)
  -- past its wait, with what it saw when it took the mutex back
  | returned (w : Wait) (seen : Shared)

structure State (Shared Cv Wait : Type*) where
  shared : Shared
  pc : ℕ → PC Shared Cv Wait

inductive Action (Op Wait : Type*) where
  | run (t : ℕ) (op : Op)
  | notify (t : ℕ)
  | pass (t : ℕ) (w : Wait)
  | sleep (t : ℕ) (w : Wait)
  -- also without a notification
  | wake (t : ℕ)
  | leave (t : ℕ)
  | sleepAgain (t : ℕ)
  | expire (t : ℕ)
  | done (t : ℕ)

def State.setPC (s : State Shared Cv Wait) (t : ℕ) (pc : PC Shared Cv Wait) :
    State Shared Cv Wait :=
  { s with pc := Function.update s.pc t pc }

@[simp] theorem setPC_pc (s : State Shared Cv Wait) (t : ℕ) (pc : PC Shared Cv Wait) :
    (s.setPC t pc).pc = Function.update s.pc t pc := rfl

@[simp] theorem setPC_shared (s : State Shared Cv Wait) (t : ℕ) (pc : PC Shared Cv Wait) :
    (s.setPC t pc).shared = s.shared := rfl

/-- What becomes of a thread when all that sleep on one condition variable are woken. -/
def PC.notified [DecidableEq Cv] (cv : Wait → Cv) (o : Option Cv) :
    PC Shared Cv Wait → PC Shared Cv Wait
  | .asleep w => if o = some (cv w) then .awake w else .asleep w
  | pc => pc

def PC.waits (w : Wait) (pc : PC Shared Cv Wait) : Prop := pc = .asleep w ∨ pc = .awake w

/-- What a thread does after a section. -/
def PC.afterwards : Option Cv → PC Shared Cv Wait
  | none => .idle
  | some c => .owing c

variable [DecidableEq Cv]

def State.notifyAll (s : State Shared Cv Wait) (cv : Wait → Cv) (o : Option Cv) :
    State Shared Cv Wait :=
  { s with pc := fun t => (s.pc t).notified cv o }

inductive Step (M : Monitor Shared Op Cv Wait) :
    State Shared Cv Wait → Action Op Wait → State Shared Cv Wait → Prop where
  | run {s t} (op : Op) : s.pc t = .idle →
      Step M s (.run t op)
        (({ s with shared := M.run s.shared op }.notifyAll M.cv (M.inside s.shared op)).setPC t
          (.afterwards (M.after s.shared op)))
  | notify {s t c} : s.pc t = .owing c →
      Step M s (.notify t) ((s.notifyAll M.cv (some c)).setPC t .idle)
  | pass {s t w} : s.pc t = .idle → M.ready w s.shared →
      Step M s (.pass t w) (s.setPC t (.returned w s.shared))
  | sleep {s t w} : s.pc t = .idle → ¬M.ready w s.shared →
      Step M s (.sleep t w) (s.setPC t (.asleep w))
  | wake {s t w} : s.pc t = .asleep w → Step M s (.wake t) (s.setPC t (.awake w))
  | leave {s t w} : s.pc t = .awake w → M.ready w s.shared →
      Step M s (.leave t) (s.setPC t (.returned w s.shared))
  | sleepAgain {s t w} : s.pc t = .awake w → ¬M.ready w s.shared →
      Step M s (.sleepAgain t) (s.setPC t (.asleep w))
  | expire {s t w} : (s.pc t).waits w → M.timed w →
      Step M s (.expire t) (s.setPC t (.returned w s.shared))
  | done {s t w seen} : s.pc t = .returned w seen → Step M s (.done t) (s.setPC t .idle)

def system (M : Monitor Shared Op Cv Wait) : System (State Shared Cv Wait) (Action Op Wait) where
  Initial s := s = ⟨M.start, fun _ => .idle⟩
  Step := Step M

/-- A section that makes a condition true notifies those who wait for it. -/
def Announces (M : Monitor Shared Op Cv Wait) : Prop :=
  ∀ w s op, ¬M.ready w s → M.ready w (M.run s op) →
    M.inside s op = some (M.cv w) ∨ M.after s op = some (M.cv w)

/-- Who sleeps though its condition holds has a notification to come. -/
def Owed (M : Monitor Shared Op Cv Wait) (s : State Shared Cv Wait) : Prop :=
  ∀ t w, s.pc t = .asleep w → M.ready w s.shared → ∃ u, s.pc u = .owing (M.cv w)

/-- What a step can do to a thread. -/
inductive Moves (M : Monitor Shared Op Cv Wait) (shared : Shared) :
    PC Shared Cv Wait → PC Shared Cv Wait → Prop where
  | stay (pc) : Moves M shared pc pc
  | woken (w) : Moves M shared (.asleep w) (.awake w)
  | ran (o) : Moves M shared .idle (.afterwards o)
  | notified (c) : Moves M shared (.owing c) .idle
  | passed (w) : M.ready w shared → Moves M shared .idle (.returned w shared)
  | slept (w) : ¬M.ready w shared → Moves M shared .idle (.asleep w)
  | left (w) : M.ready w shared → Moves M shared (.awake w) (.returned w shared)
  | sleptAgain (w) : ¬M.ready w shared → Moves M shared (.awake w) (.asleep w)
  | expired {w pc} : pc.waits w → M.timed w → Moves M shared pc (.returned w shared)
  | done (w seen) : Moves M shared (.returned w seen) .idle

variable {M : Monitor Shared Op Cv Wait} {s s' : State Shared Cv Wait}
  {a : Action Op Wait} {t u : ℕ} {w : Wait} {o : Option Cv} {pc : PC Shared Cv Wait}

theorem notified_eq_asleep {cv : Wait → Cv} :
    pc.notified cv o = .asleep w ↔ pc = .asleep w ∧ o ≠ some (cv w) := by
  cases pc with
  | asleep w' =>
    by_cases ho : o = some (cv w')
    · simp only [PC.notified, ho, if_true, reduceCtorEq, PC.asleep.injEq, false_iff, not_and,
        not_not]
      rintro rfl
      rfl
    · simp only [PC.notified, ho, if_false, PC.asleep.injEq]
      constructor
      · rintro rfl
        exact ⟨rfl, ho⟩
      · exact And.left
  | _ => simp [PC.notified]

@[simp] theorem notifyAll_pc {cv : Wait → Cv} :
    (s.notifyAll cv o).pc t = (s.pc t).notified cv o := rfl

theorem notified_eq_owing {cv : Wait → Cv} {c : Cv} :
    pc.notified cv o = .owing c ↔ pc = .owing c := by
  cases pc with
  | asleep w =>
    by_cases ho : o = some (cv w)
    · simp [PC.notified, ho]
    · simp [PC.notified, ho]
  | _ => rfl

theorem notified_eq_returned {cv : Wait → Cv} {seen : Shared} :
    pc.notified cv o = .returned w seen ↔ pc = .returned w seen := by
  cases pc with
  | asleep w' =>
    by_cases ho : o = some (cv w')
    · simp [PC.notified, ho]
    · simp [PC.notified, ho]
  | _ => rfl

omit [DecidableEq Cv] in
/-- A thread that owes nothing may do all but fall asleep where its condition holds. -/
theorem owed_setPC (h : M.Owed s) (ht : ∀ c, s.pc t ≠ .owing c)
    (hpc : ∀ w, pc = .asleep w → ¬M.ready w s.shared) : M.Owed (s.setPC t pc) := by
  intro u w hu hready
  rcases update_cases hu with ⟨-, rfl⟩ | ⟨-, hu⟩
  · exact absurd hready (hpc w rfl)
  · obtain ⟨v, hv⟩ := h u w hu hready
    refine ⟨v, ?_⟩
    have hne : v ≠ t := by
      rintro rfl
      exact ht _ hv
    simpa [hne] using hv

theorem owed_run (hM : M.Announces) (h : M.Owed s) (op : Op) (ht : s.pc t = .idle) :
    M.Owed (({ s with shared := M.run s.shared op }.notifyAll M.cv (M.inside s.shared op)).setPC t
      (.afterwards (M.after s.shared op))) := by
  intro u w hu hready
  rcases update_cases hu with ⟨-, hu⟩ | ⟨-, hu⟩
  · cases ha : M.after s.shared op <;> rw [ha] at hu <;> cases hu
  · obtain ⟨hu, hinside⟩ := notified_eq_asleep.mp hu
    by_cases hold : M.ready w s.shared
    · obtain ⟨v, hv⟩ := h u w hu hold
      have hne : v ≠ t := by
        rintro rfl
        cases ht.symm.trans hv
      exact ⟨v, by simpa [hne] using notified_eq_owing.mpr hv⟩
    · have hafter := (hM w s.shared op hold hready).resolve_left hinside
      exact ⟨t, by simp [hafter, PC.afterwards]⟩

theorem owed_notify {c : Cv} (h : M.Owed s) (ht : s.pc t = .owing c) :
    M.Owed ((s.notifyAll M.cv (some c)).setPC t .idle) := by
  intro u w hu hready
  rcases update_cases hu with ⟨-, hu⟩ | ⟨-, hu⟩
  · cases hu
  · obtain ⟨hu, hc⟩ := notified_eq_asleep.mp hu
    obtain ⟨v, hv⟩ := h u w hu hready
    have hne : v ≠ t := by
      rintro rfl
      rw [ht, PC.owing.injEq] at hv
      exact hc (congrArg some hv)
    exact ⟨v, by simpa [hne] using notified_eq_owing.mpr hv⟩

theorem owed_step (hM : M.Announces) (hs : M.Step s a s') (h : M.Owed s) : M.Owed s' := by
  cases hs with
  | run op ht => exact owed_run hM h op ht
  | notify ht => exact owed_notify h ht
  | pass ht _ | wake ht | leave ht _ | done ht =>
    exact owed_setPC h (by simp [ht]) (by rintro w ⟨⟩)
  | sleep ht hready | sleepAgain ht hready =>
    refine owed_setPC h (by simp [ht]) ?_
    rintro w ⟨⟩
    exact hready
  | expire ht _ =>
    refine owed_setPC h ?_ (by rintro w ⟨⟩)
    rcases ht with ht | ht <;> simp [ht]

theorem reachable_step {ok : State Shared Cv Wait → Action Op Wait → Prop}
    (h : M.system.Reachable ok s) (ha : ok s a) (hs : M.Step s a s') : M.system.Reachable ok s' :=
  h.step ha hs

theorem owed_reachable {ok : State Shared Cv Wait → Action Op Wait → Prop} (hM : M.Announces)
    (h : M.system.Reachable ok s) : M.Owed s := by
  refine h.invariant (P := M.Owed) ?_ (fun _ _ _ _ hp _ hs => owed_step hM hs hp)
  rintro s rfl t w ht
  cases ht

theorem moves_notified {shared : Shared} : Moves M shared pc (pc.notified M.cv o) := by
  cases pc with
  | asleep w =>
    by_cases ho : o = some (M.cv w)
    · simpa [PC.notified, ho] using Moves.woken w
    · simpa [PC.notified, ho] using Moves.stay (.asleep w)
  | _ => exact .stay _

omit [DecidableEq Cv] in
theorem moves_setPC {shared : Shared} (ht : Moves M shared (s.pc t) pc)
    (hs : ∀ u, Moves M shared (s.pc u) (s'.pc u)) :
    Moves M shared (s.pc u) ((s'.setPC t pc).pc u) := by
  by_cases hu : u = t
  · subst u
    simpa using ht
  · simpa [hu] using hs u

theorem moves_step (hs : M.Step s a s') (u : ℕ) : Moves M s.shared (s.pc u) (s'.pc u) := by
  cases hs with
  | run op ht =>
    refine moves_setPC ?_ fun _ => moves_notified
    rw [ht]
    exact .ran _
  | notify ht =>
    refine moves_setPC ?_ fun _ => moves_notified
    rw [ht]
    exact .notified _
  | pass ht hready =>
    refine moves_setPC ?_ fun _ => .stay _
    rw [ht]
    exact .passed _ hready
  | sleep ht hready =>
    refine moves_setPC ?_ fun _ => .stay _
    rw [ht]
    exact .slept _ hready
  | wake ht =>
    refine moves_setPC ?_ fun _ => .stay _
    rw [ht]
    exact .woken _
  | leave ht hready =>
    refine moves_setPC ?_ fun _ => .stay _
    rw [ht]
    exact .left _ hready
  | sleepAgain ht hready =>
    refine moves_setPC ?_ fun _ => .stay _
    rw [ht]
    exact .sleptAgain _ hready
  | expire ht htimed => exact moves_setPC (.expired ht htimed) fun _ => .stay _
  | done ht =>
    refine moves_setPC ?_ fun _ => .stay _
    rw [ht]
    exact .done _ _

/-- Who stops waiting has returned, with what there was under the mutex; his condition held unless
his time had run out. -/
theorem returned_step (hs : M.Step s a s') (hw : (s.pc t).waits w) : (s'.pc t).waits w ∨
    (s'.pc t = .returned w s.shared ∧ (¬M.timed w → M.ready w s.shared)) := by
  have hm := moves_step hs t
  generalize s.pc t = pc at hm hw
  generalize s'.pc t = pc' at hm
  cases hm with
  | stay => exact .inl hw
  | woken w' =>
    rcases hw with hw | hw <;> cases hw
    exact .inl (.inr rfl)
  | sleptAgain w' _ =>
    rcases hw with hw | hw <;> cases hw
    exact .inl (.inl rfl)
  | left w' hready =>
    rcases hw with hw | hw <;> cases hw
    exact .inr ⟨rfl, fun _ => hready⟩
  | expired hw' htimed =>
    right
    rcases hw with rfl | rfl <;> rcases hw' with hw' | hw' <;> cases hw' <;>
      exact ⟨rfl, absurd htimed⟩
  | ran o => cases o <;> rcases hw with hw | hw <;> cases hw
  | notified | passed _ _ | slept _ _ | done => rcases hw with hw | hw <;> cases hw

/-- A section changes what is guarded; nothing else does. -/
theorem shared_step (hs : M.Step s a s') :
    s'.shared = s.shared ∨ ∃ t op, a = .run t op ∧ s'.shared = M.run s.shared op := by
  cases hs with
  | run op _ => exact .inr ⟨_, op, rfl, rfl⟩
  | _ => exact .inl rfl

/-- Who has returned had returned before, or has just seen what is still there. -/
theorem seen_step {seen : Shared} (hs : M.Step s a s') (ht : s'.pc t = .returned w seen) :
    s.pc t = .returned w seen ∨ (seen = s.shared ∧ s'.shared = s.shared) := by
  cases hs with
  | run op hu =>
    left
    rcases update_cases ht with ⟨-, ht⟩ | ⟨-, ht⟩
    · cases ho : M.after s.shared op <;> rw [ho] at ht <;> cases ht
    · exact notified_eq_returned.mp ht
  | notify hu =>
    left
    rcases update_cases ht with ⟨-, ht⟩ | ⟨-, ht⟩
    · cases ht
    · exact notified_eq_returned.mp ht
  | pass _ _ | leave _ _ | expire _ _ =>
    rcases update_cases ht with ⟨-, ht⟩ | ⟨-, ht⟩
    · cases ht
      exact .inr ⟨rfl, rfl⟩
    · exact .inl ht
  | sleep _ _ | wake _ | sleepAgain _ _ | done _ =>
    left
    rcases update_cases ht with ⟨-, ht⟩ | ⟨-, ht⟩
    · cases ht
    · exact ht

section Fair

variable [DecidableEq Wait] {E : Execution (State Shared Cv Wait) (Action Op Wait)} {n k : ℕ}

/-- How far a thread is from returning. -/
def rank (t : ℕ) (w : Wait) (s : State Shared Cv Wait) : ℕ :=
  match s.pc t with
  | .asleep w' => if w' = w then 2 else 0
  | .awake w' => if w' = w then 1 else 0
  | .idle | .owing _ | .returned _ _ => 0

/-- What brings a thread that waits for `w` nearer to its return. -/
def Due (M : Monitor Shared Op Cv Wait) (t : ℕ) (w : Wait) (s : State Shared Cv Wait)
    (a : Action Op Wait) : Prop :=
  (s.pc t = .asleep w ∧ ∃ u, s.pc u = .owing (M.cv w) ∧ a = .notify u) ∨
    (s.pc t = .awake w ∧ a = .leave t)

omit [DecidableEq Cv] in
theorem rank_eq_zero : rank t w s = 0 ↔ ¬(s.pc t).waits w := by
  unfold rank PC.waits
  cases s.pc t <;> simp

theorem rank_le (hs : M.Step s a s') (hready : M.ready w s.shared) :
    rank t w s' ≤ rank t w s := by
  have hm := moves_step hs t
  unfold rank
  generalize s.pc t = pc at hm
  generalize s'.pc t = pc' at hm
  cases hm with
  | stay => exact Nat.le_refl _
  | woken w' => by_cases hw : w' = w <;> simp [hw]
  | ran o => cases o <;> exact Nat.le_refl _
  | notified _ | done _ _ | passed _ _ => exact Nat.le_refl _
  | left _ _ | expired _ _ => exact Nat.zero_le _
  | slept w' hnot | sleptAgain w' hnot =>
    have hw : w' ≠ w := by
      rintro rfl
      exact hnot hready
    simp [hw]

theorem due_enabled (howed : M.Owed s) (hready : M.ready w s.shared) (hr : rank t w s ≠ 0) :
    ∃ a s', M.Due t w s a ∧ M.Step s a s' := by
  rcases not_not.mp (mt rank_eq_zero.mpr hr) with ht | ht
  · obtain ⟨u, hu⟩ := howed t w ht hready
    exact ⟨_, _, .inl ⟨ht, u, hu, rfl⟩, .notify hu⟩
  · exact ⟨_, _, .inr ⟨ht, rfl⟩, .leave ht hready⟩

theorem rank_lt (hs : M.Step s a s') (hdue : M.Due t w s a) : rank t w s' < rank t w s := by
  rcases hdue with ⟨ht, u, hu, rfl⟩ | ⟨ht, rfl⟩
  · cases hs with
    | @notify _ c hc =>
      have hne : t ≠ u := by
        rintro rfl
        cases ht.symm.trans hu
      obtain rfl : c = M.cv w := by simpa [hu] using hc.symm
      simp [rank, hne, ht, PC.notified]
  · cases hs with
    | leave _ _ => simp [rank, ht]

/-- If the scheduler does not starve it, a thread that waits returns when its condition holds from
some moment on. -/
theorem returns (hM : M.Announces) (hE : E.Valid M.system Free) (howed : M.Owed (E.state 0))
    (hfair : E.Fair M.system Free (M.Due t w)) (hw : ((E.state n).pc t).waits w)
    (hready : ∀ m, k ≤ m → M.ready w (E.state m).shared) :
    ∃ m, n ≤ m ∧ (E.state (m + 1)).pc t = .returned w (E.state m).shared ∧
      (¬M.timed w → M.ready w (E.state m).shared) := by
  have hall : ∀ m, M.Owed (E.state m) := fun m =>
    (hE.run (Nat.zero_le m)).invariant (fun _ _ _ hp _ hs => owed_step hM hs hp) howed
  have hkeep : ∀ s a s', M.Owed s ∧ M.ready w s.shared → Free s a → M.system.Step s a s' →
      rank t w s' ≤ rank t w s := fun _ _ _ hp _ hs => rank_le hs hp.2
  have henabled : ∀ s, M.Owed s ∧ M.ready w s.shared → rank t w s ≠ 0 →
      ∃ a s', Free s a ∧ M.Due t w s a ∧ M.system.Step s a s' := by
    intro s hp hr
    obtain ⟨a, s', hdue, hs⟩ := due_enabled hp.1 hp.2 hr
    exact ⟨a, s', trivial, hdue, hs⟩
  obtain ⟨m, hkm, hzero⟩ := hfair.rank_zero hE (fun m hm => ⟨hall m, hready m hm⟩) hkeep henabled
    (fun _ _ _ _ _ hdue hs => rank_lt hs hdue)
  by_contra hnever
  have hwaits : ∀ j, n ≤ j → ((E.state j).pc t).waits w := by
    intro j hj
    induction j, hj using Nat.le_induction with
    | base => exact hw
    | succ j hj ih =>
      rcases hE.next j with heq | ⟨a, -, hs⟩
      · rwa [heq]
      · exact (returned_step hs ih).resolve_right fun h => hnever ⟨j, hj, h⟩
  exact rank_eq_zero.mp (hzero (max n m) (Nat.le_max_right n m))
    (hwaits (max n m) (Nat.le_max_left n m))

end Fair

end Monitor
