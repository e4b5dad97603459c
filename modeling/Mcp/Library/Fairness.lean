import Mcp.Library.Transition
import Mathlib.Data.Nat.Init

/-! Infinite runs, weak fairness for some of the steps, and the rank rule. -/
namespace Transition

/-- Moments, and the step that is taken at each of them, if any. -/
structure Execution (State Label : Type*) where
  state : ℕ → State
  event : ℕ → Option Label

namespace Execution

variable {State Label : Type*} {M : System State Label} {ok due : State → Label → Prop}
  {E : Execution State Label} {P : State → Prop} {rank : State → ℕ} {n m : ℕ}

/-- Each step is one of the system, and allowed. -/
def Valid (M : System State Label) (ok : State → Label → Prop) (E : Execution State Label) :
    Prop :=
  ∀ n, match E.event n with
    | none => E.state (n + 1) = E.state n
    | some a => ok (E.state n) a ∧ M.Step (E.state n) a (E.state (n + 1))

/-- If from some moment on there is always a step that is due, one that is due is taken. -/
def Fair (M : System State Label) (ok due : State → Label → Prop) (E : Execution State Label) :
    Prop :=
  ∀ n, (∀ m, n ≤ m → ∃ a t, ok (E.state m) a ∧ due (E.state m) a ∧ M.Step (E.state m) a t) →
    ∃ m a, n ≤ m ∧ E.event m = some a ∧ due (E.state m) a

theorem Valid.next (h : E.Valid M ok) (n : ℕ) :
    E.state (n + 1) = E.state n ∨ M.Next ok (E.state n) (E.state (n + 1)) := by
  have hn := h n
  cases he : E.event n with
  | none =>
    rw [he] at hn
    exact .inl hn
  | some a =>
    rw [he] at hn
    exact .inr ⟨a, hn⟩

theorem Valid.step {a : Label} (h : E.Valid M ok) (he : E.event n = some a) :
    ok (E.state n) a ∧ M.Step (E.state n) a (E.state (n + 1)) := by
  have hn := h n
  rw [he] at hn
  exact hn

theorem Valid.run (h : E.Valid M ok) (hnm : n ≤ m) : M.Run ok (E.state n) (E.state m) := by
  induction m, hnm using Nat.le_induction with
  | base => exact .refl
  | succ m _ ih =>
    rcases h.next m with he | hnext
    · rwa [he]
    · exact Relation.ReflTransGen.tail ih hnext

/-- A rank that no step raises. -/
theorem Valid.rank_le (h : E.Valid M ok) (hP : ∀ k, n ≤ k → P (E.state k))
    (hkeep : ∀ s a t, P s → ok s a → M.Step s a t → rank t ≤ rank s) (hnm : n ≤ m) :
    rank (E.state m) ≤ rank (E.state n) := by
  induction m, hnm using Nat.le_induction with
  | base => exact Nat.le_refl _
  | succ m hm ih =>
    rcases h.next m with he | ⟨a, ha, hst⟩
    · rwa [he]
    · exact Nat.le_trans (hkeep _ a _ (hP m hm) ha hst) ih

/-- While `P` holds no step raises the rank; where it is positive a step is due, and the steps that
are due lower it. Then it comes to zero and stays there. -/
theorem Fair.rank_zero (hfair : E.Fair M ok due) (h : E.Valid M ok)
    (hP : ∀ k, n ≤ k → P (E.state k))
    (hkeep : ∀ s a t, P s → ok s a → M.Step s a t → rank t ≤ rank s)
    (henabled : ∀ s, P s → rank s ≠ 0 → ∃ a t, ok s a ∧ due s a ∧ M.Step s a t)
    (hlower : ∀ s a t, P s → rank s ≠ 0 → due s a → M.Step s a t → rank t < rank s) :
    ∃ m, n ≤ m ∧ ∀ k, m ≤ k → rank (E.state k) = 0 := by
  induction hr : rank (E.state n) using Nat.strong_induction_on generalizing n with
  | _ r ih =>
    by_cases hzero : ∃ m, n ≤ m ∧ rank (E.state m) = 0
    · obtain ⟨m, hnm, hm⟩ := hzero
      refine ⟨m, hnm, ?_⟩
      intro k hk
      have := h.rank_le (fun k hk => hP k (Nat.le_trans hnm hk)) hkeep hk
      omega
    · have hpos : ∀ m, n ≤ m → rank (E.state m) ≠ 0 := fun m hnm hm => hzero ⟨m, hnm, hm⟩
      obtain ⟨m, a, hnm, he, hdue⟩ :=
        hfair n fun m hnm => henabled _ (hP m hnm) (hpos m hnm)
      have hlt := hlower _ a _ (hP m hnm) (hpos m hnm) hdue (h.step he).2
      have hle := h.rank_le hP hkeep hnm
      obtain ⟨m', hm', hall⟩ :=
        ih (rank (E.state (m + 1))) (by omega) (fun k hk => hP k (by omega)) rfl
      exact ⟨m', by omega, hall⟩

theorem Valid.idle (h : E.Valid M ok) (he : E.event n = none) : E.state (n + 1) = E.state n := by
  have hn := h n
  rwa [he] at hn

/-- Nothing happens any more. -/
def still (s : State) : Execution State Label where
  state _ := s
  event _ := none

/-- A step before all others. -/
def cons (s : State) (a : Label) (E : Execution State Label) : Execution State Label where
  state
    | 0 => s
    | n + 1 => E.state n
  event
    | 0 => some a
    | n + 1 => E.event n

theorem valid_still (s : State) : (still s : Execution State Label).Valid M ok := fun _ => rfl

theorem Valid.cons {s : State} {a : Label} (h : E.Valid M ok) (ha : ok s a)
    (hs : M.Step s a (E.state 0)) : (cons s a E).Valid M ok
  | 0 => ⟨ha, hs⟩
  | n + 1 => h n

theorem fair_still {s : State} (h : ∀ a, ¬due s a) :
    (still s : Execution State Label).Fair M ok due := by
  intro n hn
  obtain ⟨a, -, -, hdue, -⟩ := hn n (Nat.le_refl n)
  exact absurd hdue (h a)

theorem Fair.cons {s : State} {a : Label} (h : E.Fair M ok due) : (cons s a E).Fair M ok due := by
  intro n hn
  obtain ⟨m, b, hm, he, hdue⟩ := h n fun m hm => hn (m + 1) (Nat.le_succ_of_le hm)
  exact ⟨m + 1, b, Nat.le_succ_of_le hm, he, hdue⟩

/-- A run that ends where nothing is due is the beginning of a fair execution. -/
theorem exists_of_run {s t : State} (h : M.Run ok s t) (hquiet : ∀ a, ¬due t a) :
    ∃ E : Execution State Label, E.Valid M ok ∧ E.Fair M ok due ∧ E.state 0 = s := by
  induction h using Relation.ReflTransGen.head_induction_on with
  | refl => exact ⟨still t, valid_still t, fair_still hquiet, rfl⟩
  | head hnext _ ih =>
    obtain ⟨a, ha, hs⟩ := hnext
    obtain ⟨E, hvalid, hfair, rfl⟩ := ih
    exact ⟨cons _ a E, hvalid.cons ha hs, hfair.cons, rfl⟩

end Execution

end Transition
