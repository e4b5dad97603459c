import Mathlib.Data.Multiset.Count
import Mathlib.Data.Multiset.AddSub

/-! Tokens that pass from hand to hand. A ledger says what each place holds; custody says that
every live token is in exactly one place, once. -/
namespace Custody

variable {Place Token : Type*} [DecidableEq Place] [DecidableEq Token]
  {L L' : Place → Multiset Token} {live live' : Token → Prop}
  {p q r : Place} {x : Token} {xs : Multiset Token}

/-- `at x` is the one place of `x`, `none` while it has none. -/
def Located (L : Place → Multiset Token) (place : Token → Option Place) : Prop :=
  ∀ p x, (L p).count x = if place x = some p then 1 else 0

/-- The live tokens are each in exactly one place, and nothing else is anywhere. -/
def Exclusive (live : Token → Prop) (L : Place → Multiset Token) : Prop :=
  ∃ place, Located L place ∧ ∀ x, (place x).isSome ↔ live x

/-- `xs` leave `p` for `q`; the other places keep what they hold. -/
structure Transfer (xs : Multiset Token) (p q : Place) (L L' : Place → Multiset Token) : Prop where
  source : L p = xs + L' p
  target : L' q = xs + L q
  others : ∀ r, r ≠ p → r ≠ q → L' r = L r

/-- A new token appears at `p`. -/
structure Mint (x : Token) (p : Place) (L L' : Place → Multiset Token) : Prop where
  target : L' p = x ::ₘ L p
  others : ∀ r, r ≠ p → L' r = L r

/-- What one step may do to the ledger. -/
inductive Move (live : Token → Prop) (L : Place → Multiset Token) (live' : Token → Prop)
    (L' : Place → Multiset Token) : Prop where
  | still : (∀ p, L' p = L p) → (∀ x, live' x ↔ live x) → Move live L live' L'
  | mint (x : Token) (p : Place) : ¬ live x → Mint x p L L' →
      (∀ y, live' y ↔ y = x ∨ live y) → Move live L live' L'
  | transfer (xs : Multiset Token) (p q : Place) : p ≠ q → Transfer xs p q L L' →
      (∀ x, live' x ↔ live x) → Move live L live' L'

theorem Exclusive.empty (hL : ∀ p, L p = 0) (hlive : ∀ x, ¬ live x) : Exclusive live L :=
  ⟨fun _ => none, fun p x => by simp [hL], fun x => by simp [hlive]⟩

theorem Exclusive.congr (h : Exclusive live L) (hL : ∀ p, L' p = L p)
    (hlive : ∀ x, live' x ↔ live x) : Exclusive live' L' := by
  obtain ⟨place, hp, hl⟩ := h
  exact ⟨place, fun p x => by rw [hL, hp], fun x => by rw [hlive, hl]⟩

theorem Exclusive.transfer (h : Exclusive live L) (hpq : p ≠ q) (ht : Transfer xs p q L L') :
    Exclusive live L' := by
  obtain ⟨place, hp, hl⟩ := h
  have hat : ∀ x ∈ xs, place x = some p := by
    intro x hx
    by_contra hne
    have hc := hp p x
    rw [ht.source, Multiset.count_add, if_neg hne] at hc
    have := Multiset.count_pos.mpr hx
    omega
  refine ⟨fun x => if x ∈ xs then some q else place x, ?_, ?_⟩
  · intro r x
    have hc := hp p x
    have hq := hp q x
    rw [ht.source, Multiset.count_add] at hc
    by_cases hx : x ∈ xs
    · have hpos := Multiset.count_pos.mpr hx
      have hsome := hat x hx
      simp only [hsome, if_true, Option.some.injEq, hpq, if_false] at hc hq
      simp only [hx, if_true, Option.some.injEq]
      by_cases hrq : q = r
      · subst r
        rw [ht.target, Multiset.count_add, hq, if_pos rfl]
        omega
      · rw [if_neg hrq]
        by_cases hrp : r = p
        · subst r; omega
        · rw [ht.others r hrp (Ne.symm hrq), hp r x, hsome, if_neg (by simpa using Ne.symm hrp)]
    · have hzero := Multiset.count_eq_zero.mpr hx
      simp only [hx, if_false]
      by_cases hrq : r = q
      · subst r; rw [ht.target, Multiset.count_add, hzero, hq]; omega
      · by_cases hrp : r = p
        · subst r; omega
        · rw [ht.others r hrp hrq, hp r x]
  · intro x
    by_cases hx : x ∈ xs
    · simpa [hx, hat x hx] using hl x
    · simpa [hx] using hl x

theorem Exclusive.mint (h : Exclusive live L) (hx : ¬ live x) (hm : Mint x p L L')
    (hlive : ∀ y, live' y ↔ y = x ∨ live y) : Exclusive live' L' := by
  obtain ⟨place, hp, hl⟩ := h
  have hnone : place x = none := by
    rw [← Option.not_isSome_iff_eq_none, hl x]
    exact hx
  refine ⟨Function.update place x (some p), ?_, ?_⟩
  · intro r y
    by_cases hr : r = p
    · subst r
      rw [hm.target]
      by_cases hy : y = x
      · subst y
        rw [Multiset.count_cons_self, hp p x, hnone]
        simp
      · rw [Multiset.count_cons_of_ne hy, hp p y]
        simp [hy]
    · rw [hm.others r hr, hp r y]
      by_cases hy : y = x
      · subst y; simp [hnone, Ne.symm hr]
      · simp [hy]
  · intro y
    by_cases hy : y = x
    · subst y; simp [hlive]
    · simp [hy, hlive, hl]

/-- No move breaks custody. -/
theorem Exclusive.move (h : Exclusive live L) (hm : Move live L live' L') :
    Exclusive live' L' := by
  cases hm with
  | still hL hlive => exact h.congr hL hlive
  | mint x p hx hm hlive => exact h.mint hx hm hlive
  | transfer xs p q hpq ht hlive => exact (h.transfer hpq ht).congr (fun _ => rfl) hlive

theorem Exclusive.count_le_one (h : Exclusive live L) (p : Place) (x : Token) :
    (L p).count x ≤ 1 := by
  obtain ⟨place, hp, _⟩ := h
  rw [hp]
  split <;> omega

theorem Exclusive.place_unique (h : Exclusive live L) (hp : x ∈ L p) (hq : x ∈ L q) : p = q := by
  obtain ⟨place, hat, _⟩ := h
  have hcp := Multiset.count_pos.mpr hp
  have hcq := Multiset.count_pos.mpr hq
  rw [hat] at hcp hcq
  split at hcp <;> split at hcq <;> simp_all

/-- What is anywhere is live. -/
theorem Exclusive.live_of_mem (h : Exclusive live L) (hp : x ∈ L p) : live x := by
  obtain ⟨place, hat, hl⟩ := h
  have hc := Multiset.count_pos.mpr hp
  rw [hat] at hc
  apply (hl x).mp
  split at hc
  · simp [*]
  · omega

/-- A live token is in exactly one place. -/
theorem Exclusive.existsUnique (h : Exclusive live L) (hx : live x) : ∃! p, x ∈ L p := by
  have hmem : ∃ p, x ∈ L p := by
    obtain ⟨place, hp, hl⟩ := h
    obtain ⟨p, hsome⟩ := Option.isSome_iff_exists.mp ((hl x).mpr hx)
    refine ⟨p, Multiset.count_pos.mp ?_⟩
    rw [hp, if_pos hsome]
    omega
  obtain ⟨p, hp⟩ := hmem
  exact ⟨p, hp, fun q hq => h.place_unique hq hp⟩

end Custody
