import Mathlib.Data.Nat.Notation
import Mathlib.Logic.Function.Basic
import Mathlib.Logic.Relation

/-! Labelled transition systems, runs under a schedule condition, and the invariant rules. -/
namespace Transition

/-- What a table of threads has at `j` after an update is the update, or was there before. -/
theorem update_cases {ι α : Type*} [DecidableEq ι] {f : ι → α} {i j : ι} {x y : α}
    (h : Function.update f i x j = y) : (j = i ∧ x = y) ∨ (j ≠ i ∧ f j = y) := by
  by_cases he : j = i
  · subst j
    exact .inl ⟨rfl, by simpa using h⟩
  · exact .inr ⟨he, by simpa [he] using h⟩

/-- Who comes back to where it was leaves all as it was. -/
theorem update_back {ι α : Type*} [DecidableEq ι] {f : ι → α} {i : ι} {x y : α} (h : f i = x) :
    Function.update (Function.update f i y) i x = f := by
  rw [Function.update_idem, Function.update_eq_self_iff]
  exact h.symm

/-- Start states and a labelled step relation. -/
structure System (State Label : Type*) where
  Initial : State → Prop
  Step : State → Label → State → Prop

/-- The condition that allows every step. -/
abbrev Free {State Label : Type*} : State → Label → Prop := fun _ _ => True

namespace System

variable {State Label : Type*} {M : System State Label} {ok ok' : State → Label → Prop}
  {s t u : State} {a : Label} {P Q : State → Prop}

/-- One step that the condition `ok` allows. -/
def Next (M : System State Label) (ok : State → Label → Prop) (s t : State) : Prop :=
  ∃ a, ok s a ∧ M.Step s a t

/-- A finite run all of whose steps are allowed by `ok`. -/
def Run (M : System State Label) (ok : State → Label → Prop) : State → State → Prop :=
  Relation.ReflTransGen (M.Next ok)

/-- States that runs from a start state visit. -/
def Reachable (M : System State Label) (ok : State → Label → Prop) (s : State) : Prop :=
  ∃ s₀, M.Initial s₀ ∧ M.Run ok s₀ s

theorem Run.refl : M.Run ok s s := Relation.ReflTransGen.refl

theorem Run.step (h : M.Run ok s t) (ha : ok t a) (hs : M.Step t a u) : M.Run ok s u :=
  Relation.ReflTransGen.tail h ⟨a, ha, hs⟩

theorem Run.trans (h : M.Run ok s t) (h' : M.Run ok t u) : M.Run ok s u :=
  Relation.ReflTransGen.trans h h'

theorem Run.mono (hok : ∀ s a, ok s a → ok' s a) (h : M.Run ok s t) : M.Run ok' s t :=
  Relation.ReflTransGen.mono (fun s _ ⟨a, ha, hs⟩ => ⟨a, hok s a ha, hs⟩) _ _ h

/-- What every allowed step preserves, every allowed run preserves. -/
theorem Run.invariant (h : M.Run ok s t)
    (hstep : ∀ s a t, P s → ok s a → M.Step s a t → P t) (hs : P s) : P t := by
  induction h with
  | refl => exact hs
  | tail _ hn ih =>
    obtain ⟨a, ha, hst⟩ := hn
    exact hstep _ a _ ih ha hst

theorem Reachable.initial (h : M.Initial s) : M.Reachable ok s := ⟨s, h, Run.refl⟩

theorem Reachable.run (h : M.Reachable ok s) (hr : M.Run ok s t) : M.Reachable ok t := by
  obtain ⟨s₀, hi, hs⟩ := h
  exact ⟨s₀, hi, hs.trans hr⟩

theorem Reachable.step (h : M.Reachable ok s) (ha : ok s a) (hs : M.Step s a t) :
    M.Reachable ok t :=
  h.run (Run.refl.step ha hs)

theorem Reachable.free (h : M.Reachable ok s) : M.Reachable Free s := by
  obtain ⟨s₀, hi, hs⟩ := h
  exact ⟨s₀, hi, hs.mono (fun _ _ _ => trivial)⟩

/-- A predicate that holds initially and is preserved by allowed steps holds of every
reachable state; a step may use what is already known of the states it starts from. -/
theorem Reachable.invariant (h : M.Reachable ok s) (hinit : ∀ s, M.Initial s → P s)
    (hstep : ∀ s a t, M.Reachable ok s → P s → ok s a → M.Step s a t → P t) : P s := by
  obtain ⟨s₀, hi, hs⟩ := h
  have hrun : M.Reachable ok s ∧ P s := by
    refine hs.invariant (P := fun s => M.Reachable ok s ∧ P s) ?_ ⟨.initial hi, hinit _ hi⟩
    rintro s a t ⟨hr, hp⟩ ha hst
    exact ⟨hr.step ha hst, hstep s a t hr hp ha hst⟩
  exact hrun.2

/-- The same system, which also counts its steps that carry one of the labels in `P`. -/
def tally (M : System State Label) (P : Label → Bool) : System (State × ℕ) Label where
  Initial x := M.Initial x.1 ∧ x.2 = 0
  Step x a y := M.Step x.1 a y.1 ∧ y.2 = x.2 + (P a).toNat

end System

end Transition
