import Mathlib.Data.Finset.Card

/-! Counting the threads of an unbounded pool that are inside a region of the program. -/
namespace Crowd

variable {Thread : Type*} {inside inside' : Thread → Prop} {t t' : Thread}
  {n m k n' k' : ℕ}

/-- At most `n` threads are inside: every finite crowd of them has at most `n` members. -/
def AtMost (inside : Thread → Prop) (n : ℕ) : Prop :=
  ∀ F : Finset Thread, (∀ t ∈ F, inside t) → F.card ≤ n

theorem AtMost.mono (h : AtMost inside n) (hi : ∀ t, inside' t → inside t) (hnm : n ≤ m) :
    AtMost inside' m :=
  fun F hF => (h F (fun t ht => hi t (hF t ht))).trans hnm

theorem AtMost.none (h : ∀ t, ¬ inside t) : AtMost inside n := by
  intro F hF
  have hempty : F = ∅ := Finset.eq_empty_of_forall_notMem (fun t ht => h t (hF t ht))
  rw [hempty]
  exact Nat.zero_le _

theorem AtMost.pos (h : AtMost inside n) (ht : inside t) : 0 < n := by
  have hcard := h {t} (by simpa using ht)
  rwa [Finset.card_singleton] at hcard

/-- A thread that enters adds one. -/
theorem AtMost.enter [DecidableEq Thread] (h : AtMost inside n)
    (hi : ∀ u, u ≠ t → inside' u → inside u) :
    AtMost inside' (n + 1) := by
  intro F hF
  have hcard := h (F.erase t) (fun u hu =>
    hi u (Finset.ne_of_mem_erase hu) (hF u (Finset.mem_of_mem_erase hu)))
  have hpred := Finset.pred_card_le_card_erase (s := F) (a := t)
  omega

/-- A thread that leaves takes one with it. -/
theorem AtMost.leave [DecidableEq Thread] (h : AtMost inside n) (ht : inside t)
    (hi : ∀ u, inside' u → u ≠ t ∧ inside u) : AtMost inside' (n - 1) := by
  intro F hF
  have hnot : t ∉ F := fun hm => (hi t (hF t hm)).1 rfl
  have hcard := h (insert t F) (by
    intro u hu
    rcases Finset.mem_insert.mp hu with rfl | hu
    · exact ht
    · exact (hi u (hF u hu)).2)
  rw [Finset.card_insert_of_notMem hnot] at hcard
  omega

/-- `n` threads are inside. -/
def Exactly (inside : Thread → Prop) (n : ℕ) : Prop :=
  ∃ F : Finset Thread, (∀ t, t ∈ F ↔ inside t) ∧ F.card = n

theorem Exactly.none (h : ∀ t, ¬ inside t) : Exactly inside 0 :=
  ⟨∅, by simpa using h, rfl⟩

theorem Exactly.congr (h : Exactly inside n) (hi : ∀ u, inside' u ↔ inside u) :
    Exactly inside' n := by
  obtain ⟨F, hF, hcard⟩ := h
  exact ⟨F, fun u => (hF u).trans (hi u).symm, hcard⟩

theorem Exactly.unique (h : Exactly inside n) (h' : Exactly inside m) : n = m := by
  obtain ⟨F, hF, rfl⟩ := h
  obtain ⟨G, hG, rfl⟩ := h'
  have he : F = G := Finset.ext fun u => (hF u).trans (hG u).symm
  rw [he]

theorem Exactly.atMost (h : Exactly inside n) (hnm : n ≤ m) : AtMost inside m := by
  obtain ⟨F, hF, rfl⟩ := h
  intro G hG
  have hsub : G ⊆ F := fun u hu => (hF u).mpr (hG u hu)
  exact (Finset.card_le_card hsub).trans hnm

theorem Exactly.pos (h : Exactly inside n) (ht : inside t) : 0 < n := by
  obtain ⟨F, hF, rfl⟩ := h
  exact Finset.card_pos.mpr ⟨t, (hF t).mpr ht⟩

theorem Exactly.exists_of_pos (h : Exactly inside n) (hn : 0 < n) : ∃ t, inside t := by
  obtain ⟨F, hF, rfl⟩ := h
  obtain ⟨t, ht⟩ := Finset.card_pos.mp hn
  exact ⟨t, (hF t).mp ht⟩

theorem Exactly.enter [DecidableEq Thread] (h : Exactly inside n) (ht : ¬ inside t)
    (hi : ∀ u, inside' u ↔ u = t ∨ inside u) : Exactly inside' (n + 1) := by
  obtain ⟨F, hF, rfl⟩ := h
  refine ⟨insert t F, ?_, Finset.card_insert_of_notMem (by rwa [hF])⟩
  intro u
  rw [Finset.mem_insert, hF, hi]

theorem Exactly.leave [DecidableEq Thread] (h : Exactly inside n) (ht : inside t)
    (hi : ∀ u, inside' u ↔ u ≠ t ∧ inside u) : Exactly inside' (n - 1) := by
  obtain ⟨F, hF, rfl⟩ := h
  refine ⟨F.erase t, ?_, Finset.card_erase_of_mem ((hF t).mpr ht)⟩
  intro u
  rw [Finset.mem_erase, hF, hi]

/-- The threads inside, and `k` more, are `n` at most. -/
def Covered (inside : Thread → Prop) (k n : ℕ) : Prop := ∃ m, AtMost inside m ∧ m + k ≤ n

theorem Covered.le (h : Covered inside k n) : k ≤ n := by
  obtain ⟨m, -, hm⟩ := h
  exact (Nat.le_add_left k m).trans hm

theorem Covered.none (h : ∀ t, ¬ inside t) (hkn : k ≤ n) : Covered inside k n :=
  ⟨0, .none h, by omega⟩

/-- Nobody enters. -/
theorem Covered.mono (h : Covered inside k n) (hi : ∀ t, inside' t → inside t)
    (hkn : k' + n ≤ k + n') : Covered inside' k' n' := by
  obtain ⟨m, hm, hle⟩ := h
  exact ⟨m, hm.mono hi le_rfl, by omega⟩

/-- A thread enters: one of the others is less, or the bound is more. -/
theorem Covered.enter [DecidableEq Thread] (h : Covered inside k n)
    (hi : ∀ u, u ≠ t → inside' u → inside u) (hkn : k' + 1 + n ≤ k + n') :
    Covered inside' k' n' := by
  obtain ⟨m, hm, hle⟩ := h
  exact ⟨m + 1, hm.enter hi, by omega⟩

/-- A thread leaves, and one of the others may be more. -/
theorem Covered.leave [DecidableEq Thread] (h : Covered inside k n) (ht : inside t)
    (hi : ∀ u, inside' u → u ≠ t ∧ inside u) (hkn : k' + n ≤ k + 1 + n') :
    Covered inside' k' n' := by
  obtain ⟨m, hm, hle⟩ := h
  have hpos := hm.pos ht
  exact ⟨m - 1, hm.leave ht hi, by omega⟩

/-- A thread leaves and another enters. -/
theorem Covered.pass [DecidableEq Thread] (h : Covered inside k n) (ht : inside t)
    (hi : ∀ u, inside' u → u = t' ∨ (u ≠ t ∧ inside u)) (hkn : k' + n ≤ k + n') :
    Covered inside' k' n' := by
  have hleft : Covered (fun u => u ≠ t ∧ inside u) (k + 1) n := h.leave ht (fun _ => id) (by omega)
  exact hleft.enter (fun u hu hin => (hi u hin).resolve_left hu) (by omega)

end Crowd
