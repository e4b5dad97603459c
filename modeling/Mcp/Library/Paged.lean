import Mathlib.Data.List.Infix

/-! A listing that is handed out page by page, each page but the last naming the next cursor. -/
namespace Paged

variable {α Cursor ε : Type*} {fetch : Option Cursor → Except ε (List α × Option Cursor)}
  {cursor : Option Cursor} {pages pages' : List (List α)}

/-- The pages collected from a cursor on, up to the page that names no next one. A request that
is rejected has no traversal. -/
inductive Traversal (fetch : Option Cursor → Except ε (List α × Option Cursor)) :
    Option Cursor → List (List α) → Prop where
  | last {cursor page} : fetch cursor = .ok (page, none) → Traversal fetch cursor [page]
  | more {cursor page next pages} : fetch cursor = .ok (page, some next) →
      Traversal fetch (some next) pages → Traversal fetch cursor (page :: pages)

theorem Traversal.unique (h : Traversal fetch cursor pages) (h' : Traversal fetch cursor pages') :
    pages = pages' := by
  induction h generalizing pages' with
  | last hf =>
    cases h' with
    | last hf' =>
      rw [hf] at hf'
      cases hf'
      rfl
    | more hf' _ =>
      rw [hf] at hf'
      cases hf'
  | more hf _ ih =>
    cases h' with
    | last hf' =>
      rw [hf] at hf'
      cases hf'
    | more hf' ht =>
      rw [hf] at hf'
      cases hf'
      rw [ih ht]

/-- A listing of the images of another one's items has the images of its pages. -/
theorem Traversal.map {β : Type*} {f : α → β}
    {fetch' : Option Cursor → Except ε (List β × Option Cursor)}
    (hf : ∀ cursor page next, fetch cursor = .ok (page, next) →
      fetch' cursor = .ok (page.map f, next))
    (h : Traversal fetch cursor pages) : Traversal fetch' cursor (pages.map (List.map f)) := by
  induction h with
  | last hpage => exact .last (hf _ _ _ hpage)
  | more hpage _ ih => exact .more (hf _ _ _ hpage) ih

/-- If the page at position `n` is the next `size` items, and the cursor it names is that of
position `n + size`, a traversal cuts the rest of the items into pages. -/
theorem exists_traversal {items : List α} {size : ℕ} (hsize : 0 < size)
    {pos : ℕ → Cursor} {cursorAt : ℕ → Option Cursor}
    (hpos : ∀ n, 0 < n → cursorAt n = some (pos n))
    (hmore : ∀ n, n + size < items.length →
      fetch (cursorAt n) = .ok ((items.drop n).take size, some (pos (n + size))))
    (hlast : ∀ n, n < items.length → items.length ≤ n + size →
      fetch (cursorAt n) = .ok (items.drop n, none)) :
    ∀ n, n < items.length → ∃ pages, Traversal fetch (cursorAt n) pages ∧
      (∀ page ∈ pages, page.length ≤ size ∧ page ≠ []) ∧ pages.flatten = items.drop n := by
  intro n hn
  induction hk : items.length - n using Nat.strongRecOn generalizing n with
  | ind k ih =>
    by_cases hle : items.length ≤ n + size
    · refine ⟨[items.drop n], .last (hlast n hn hle), ?_, by simp⟩
      intro page hpage
      obtain rfl : page = items.drop n := by simpa using hpage
      constructor
      · rw [List.length_drop]
        omega
      · intro hnil
        have := congrArg List.length hnil
        rw [List.length_drop, List.length_nil] at this
        omega
    · have hlt : n + size < items.length := by omega
      obtain ⟨pages, ht, hpages, hflat⟩ := ih (items.length - (n + size)) (by omega) _ hlt rfl
      rw [hpos (n + size) (by omega)] at ht
      refine ⟨_, .more (hmore n hlt) ht, ?_, ?_⟩
      · intro page hpage
        rcases List.mem_cons.mp hpage with rfl | hpage
        · constructor
          · rw [List.length_take]
            omega
          · intro hnil
            have := congrArg List.length hnil
            rw [List.length_take, List.length_drop, List.length_nil] at this
            omega
        · exact hpages page hpage
      · rw [List.flatten_cons, hflat, ← List.drop_drop, List.take_append_drop]

section Growing

variable {Store ι : Type*} {request : Store → Option Cursor → Except ε (List α × Option Cursor)}
  {grow : Store → Store → Prop} {s₀ s s' : Store} {seen : List α} {next : Option Cursor}

/-- What a client has been handed that follows the cursors, while the listing may grow between
its requests; and the cursor it was given last, with the store that answered. -/
inductive Visit (request : Store → Option Cursor → Except ε (List α × Option Cursor))
    (grow : Store → Store → Prop) (s₀ : Store) : Store → List α → Option Cursor → Prop where
  | first {page next} : request s₀ none = .ok (page, next) → Visit request grow s₀ s₀ page next
  | more {s s' seen cursor page next} : Visit request grow s₀ s seen (some cursor) →
      grow s s' → request s' (some cursor) = .ok (page, next) →
      Visit request grow s₀ s' (seen ++ page) next

/-- A listing by position: it only grows at its end, and the page at a position `n` that a visit
can come to holds the names of the next `size` items and names the cursor of position `n + size`
when there is more. -/
structure Positional (request : Store → Option Cursor → Except ε (List α × Option Cursor))
    (grow : Store → Store → Prop) (good : Store → Prop) (items : Store → List ι) (name : α → ι)
    (size : ℕ) (cursorAt : ℕ → Option Cursor) : Prop where
  size_pos : 0 < size
  start : cursorAt 0 = none
  cursor : ∀ n, 0 < n → (cursorAt n).isSome
  good_grow : ∀ s s', good s → grow s s' → good s'
  prefix_grow : ∀ s s', good s → grow s s' → items s <+: items s'
  page : ∀ s n, good s → n = 0 ∨ size ≤ n ∧ n < (items s).length → ∃ page,
    request s (cursorAt n) =
      .ok (page, if n + size < (items s).length then cursorAt (n + size) else none) ∧
    page.map name = ((items s).drop n).take size

variable {good : Store → Prop} {items : Store → List ι} {name : α → ι} {size : ℕ}
  {cursorAt : ℕ → Option Cursor}

/-- The client has the first `n` items; there is more just when it has a cursor, which is that of
position `n`. -/
structure Reached (items : Store → List ι) (name : α → ι) (size : ℕ)
    (cursorAt : ℕ → Option Cursor) (s : Store) (seen : List α) (next : Option Cursor) (n : ℕ) :
    Prop where
  le : size ≤ n
  seen : seen.map name = (items s).take n
  next : next = if n < (items s).length then cursorAt n else none

theorem reached_page {page : List α} {n : ℕ} (hseen : seen.map name = (items s).take n)
    (hpage : page.map name = ((items s).drop n).take size) :
    Reached items name size cursorAt s (seen ++ page)
      (if n + size < (items s).length then cursorAt (n + size) else none) (n + size) where
  le := Nat.le_add_left size n
  seen := by rw [List.map_append, hseen, hpage, ← List.take_add]
  next := rfl

/-- A visit goes through the items in order, whatever is added meanwhile. -/
theorem Visit.reached (hp : Positional request grow good items name size cursorAt)
    (h₀ : good s₀) (h : Visit request grow s₀ s seen next) :
    good s ∧ items s₀ <+: items s ∧ ∃ n, Reached items name size cursorAt s seen next n := by
  induction h with
  | first hreq =>
    refine ⟨h₀, List.prefix_refl _, size, ?_⟩
    obtain ⟨page, hpage, hname⟩ := hp.page s₀ 0 h₀ (.inl rfl)
    rw [hp.start, hreq] at hpage
    cases hpage
    have hnil : ([] : List α).map name = (items s₀).take 0 := rfl
    simpa using reached_page hnil hname
  | @more s s' seen cursor _ _ _ hgrow hreq ih =>
    obtain ⟨hgood, hstart, n, hle, hseen, hnext⟩ := ih
    have hgrown := hp.prefix_grow s s' hgood hgrow
    have hgood' := hp.good_grow s s' hgood hgrow
    refine ⟨hgood', hstart.trans hgrown, n + size, ?_⟩
    -- a cursor was named, so the position is short of the end, then as now
    have hn : n < (items s).length := by
      by_contra hn
      rw [if_neg hn] at hnext
      cases hnext
    rw [if_pos hn] at hnext
    have htake : (items s).take n = (items s').take n := by
      rw [List.prefix_iff_eq_take.mp hgrown, List.take_take, min_eq_left hn.le]
    obtain ⟨page, hpage, hname⟩ := hp.page s' n hgood' (.inr ⟨hle, hn.trans_le hgrown.length_le⟩)
    rw [← hnext, hreq] at hpage
    cases hpage
    exact reached_page (hseen.trans htake) hname

/-- Nothing is handed out twice, and all there was at the start is handed out, first and in its
order, once no further cursor is named. -/
theorem Visit.complete (hp : Positional request grow good items name size cursorAt)
    (h₀ : good s₀) (hnodup : ∀ s, good s → (items s).Nodup)
    (h : Visit request grow s₀ s seen next) :
    (seen.map name).Nodup ∧ seen.map name <+: items s ∧
      (next = none → items s₀ <+: seen.map name) := by
  obtain ⟨hgood, hstart, n, hle, hseen, hnext⟩ := h.reached hp h₀
  have hpre : seen.map name <+: items s := hseen ▸ List.take_prefix n _
  refine ⟨hpre.sublist.nodup (hnodup s hgood), hpre, ?_⟩
  rintro rfl
  have hn : ¬n < (items s).length := by
    intro hn
    have hcursor := hp.cursor n (hp.size_pos.trans_le hle)
    rw [if_pos hn] at hnext
    rw [← hnext] at hcursor
    cases hcursor
  rw [hseen, List.take_of_length_le (Nat.not_lt.mp hn)]
  exact hstart

/-- Whatever is added before it, the next request is answered. -/
theorem Visit.answered (hp : Positional request grow good items name size cursorAt)
    (h₀ : good s₀) {cursor : Cursor} (h : Visit request grow s₀ s seen (some cursor))
    (hgrow : grow s s') : ∃ page next, request s' (some cursor) = .ok (page, next) := by
  obtain ⟨hgood, -, n, hle, -, hnext⟩ := h.reached hp h₀
  have hn : n < (items s).length := by
    by_contra hn
    rw [if_neg hn] at hnext
    cases hnext
  rw [if_pos hn] at hnext
  have hlength := (hp.prefix_grow s s' hgood hgrow).length_le
  obtain ⟨page, hpage, -⟩ := hp.page s' n (hp.good_grow s s' hgood hgrow)
    (.inr ⟨hle, hn.trans_le hlength⟩)
  exact ⟨page, _, hnext ▸ hpage⟩

end Growing

end Paged
