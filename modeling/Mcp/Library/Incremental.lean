import Mathlib.Data.List.Basic

/-! Items read off the front of a buffer that grows chunk by chunk. -/
namespace Incremental

variable {α β : Type*}

/-- `next` takes the first complete item off a buffer, if there is one: what it yields, and what
is left. What it takes does not depend on what follows. -/
structure Reader (α β : Type*) where
  next : List α → Option (List β × List α)
  shorter : ∀ {buf out rest}, next buf = some (out, rest) → rest.length < buf.length
  stable : ∀ {buf out rest}, next buf = some (out, rest) →
    ∀ more, next (buf ++ more) = some (out, rest ++ more)

namespace Reader

variable (R : Reader α β) {buf rest more : List α} {out : List β}

/-- Read items as long as there is a complete one. -/
def drain (buf : List α) : List β × List α :=
  match h : R.next buf with
  | none => ([], buf)
  | some (out, rest) =>
    have := R.shorter h
    let r := drain rest
    (out ++ r.1, r.2)
termination_by buf.length

/-- Append a chunk, drain, and so on with the next chunk. -/
def feed (buf : List α) : List (List α) → List β × List α
  | [] => ([], buf)
  | chunk :: chunks =>
    let r := R.drain (buf ++ chunk)
    let t := feed r.2 chunks
    (r.1 ++ t.1, t.2)

variable {R}

theorem drain_of_none (h : R.next buf = none) : R.drain buf = ([], buf) := by
  unfold drain
  split
  · rfl
  · next h' =>
    rw [h] at h'
    cases h'

theorem drain_of_some (h : R.next buf = some (out, rest)) :
    R.drain buf = (out ++ (R.drain rest).1, (R.drain rest).2) := by
  rw [drain]
  split
  · next h' =>
    rw [h] at h'
    cases h'
  · next h' =>
    rw [h] at h'
    cases h'
    rfl

/-- What is left has no complete item. -/
theorem next_drain (buf : List α) : R.next (R.drain buf).2 = none := by
  induction hn : buf.length using Nat.strongRecOn generalizing buf with
  | ind n ih =>
    subst hn
    cases h : R.next buf with
    | none => rwa [drain_of_none h]
    | some r =>
      rw [drain_of_some h]
      exact ih _ (R.shorter h) _ rfl

theorem drain_append (buf more : List α) : R.drain (buf ++ more) =
    ((R.drain buf).1 ++ (R.drain ((R.drain buf).2 ++ more)).1,
      (R.drain ((R.drain buf).2 ++ more)).2) := by
  induction hn : buf.length using Nat.strongRecOn generalizing buf with
  | ind n ih =>
    subst hn
    cases h : R.next buf with
    | none => simp [drain_of_none h]
    | some r =>
      rw [drain_of_some h, drain_of_some (R.stable h more), ih _ (R.shorter h) _ rfl]
      simp

theorem drain_nil : R.drain [] = ([], []) := by
  apply drain_of_none
  cases h : R.next [] with
  | none => rfl
  | some r => exact absurd (R.shorter h) (Nat.not_lt_zero _)

/-- Draining after each chunk comes to draining once at the end. -/
theorem feed_eq_drain (h : R.next buf = none) (chunks : List (List α)) :
    R.feed buf chunks = R.drain (buf ++ chunks.flatten) := by
  induction chunks generalizing buf with
  | nil => simp [feed, drain_of_none h]
  | cons chunk chunks ih =>
    rw [feed, ih (next_drain _), List.flatten_cons, ← List.append_assoc,
      drain_append (buf ++ chunk)]

/-- Items that are each read back, whatever follows them, are read back one after the other. -/
theorem drain_flatMap {γ : Type*} {write : γ → List α} {read : γ → List β}
    (h : ∀ x rest, R.next (write x ++ rest) = some (read x, rest)) (xs : List γ) :
    R.drain (xs.flatMap write) = (xs.flatMap read, []) := by
  induction xs with
  | nil => exact drain_nil
  | cons x xs ih => rw [List.flatMap_cons, drain_of_some (h x _), ih, List.flatMap_cons]

/-- A buffer that ends inside an item has no more to read. -/
theorem next_eq_none {γ : Type*} {write : γ → List α} {read : γ → List β}
    (h : ∀ x rest, R.next (write x ++ rest) = some (read x, rest)) {x : γ} (hne : more ≠ [])
    (hx : buf ++ more = write x) : R.next buf = none := by
  cases hb : R.next buf with
  | none => rfl
  | some r =>
    have hwhole := h x []
    rw [List.append_nil, ← hx, R.stable hb more, Option.some.injEq, Prod.mk.injEq] at hwhole
    exact absurd (List.append_eq_nil_iff.mp hwhole.2).2 hne

/-- Of a stream of items that breaks off anywhere, the items before the break are read, and the rest
stays. -/
theorem drain_prefix {γ : Type*} {write : γ → List α} {read : γ → List β}
    (h : ∀ x rest, R.next (write x ++ rest) = some (read x, rest)) {xs : List γ}
    (hp : buf <+: xs.flatMap write) : ∃ ys tail, ys <+: xs ∧ buf = ys.flatMap write ++ tail ∧
      R.drain buf = (ys.flatMap read, tail) := by
  induction xs generalizing buf with
  | nil =>
    obtain rfl := List.prefix_nil.mp hp
    exact ⟨[], [], List.nil_prefix, rfl, drain_nil⟩
  | cons x xs ih =>
    rw [List.flatMap_cons] at hp
    have hwhole : write x <+: buf → ∃ ys tail, ys <+: x :: xs ∧
        buf = ys.flatMap write ++ tail ∧ R.drain buf = (ys.flatMap read, tail) := by
      rintro ⟨after, rfl⟩
      obtain ⟨ys, tail, hys, hafter, hread⟩ := ih ((List.prefix_append_right_inj _).mp hp)
      refine ⟨x :: ys, tail, List.cons_prefix_cons.mpr ⟨rfl, hys⟩, ?_, ?_⟩
      · rw [List.flatMap_cons, List.append_assoc, ← hafter]
      · rw [drain_of_some (h x after), hread, List.flatMap_cons]
    rcases List.prefix_or_prefix_of_prefix hp (List.prefix_append _ _) with ⟨more, hx⟩ | hx
    · by_cases hmore : more = []
      · rw [hmore, List.append_nil] at hx
        exact hwhole (hx ▸ List.prefix_refl _)
      · exact ⟨[], buf, List.nil_prefix, rfl, drain_of_none (next_eq_none h hmore hx)⟩
    · exact hwhole hx

end Reader

end Incremental
