import Mcp.Tasks.StateMachine

/-! The loop of gc_expired, against what enable_tasks says of a ttl. -/
namespace Mcp.Tasks

open Transition

variable {s : TaskStore} {now : Int64} {xs : List (Sigma fun _ : String => Entry)}

/-- The loop over the entries, in the order `entries_` has them, and the count it returns. -/
def gcLoop (now : Int64) :
    List (Sigma fun _ : String => Entry) → TaskStore × ℕ → TaskStore × ℕ
  | [], r => r
  | ⟨id, e⟩ :: rest, (s, removed) =>
    if TaskStore.expired now e then
      gcLoop now rest
        ({ entries := s.entries.erase id, order := s.order.filter (· ≠ id) }, removed + 1)
    else gcLoop now rest (s, removed)

/-- In milliseconds. -/
def Entry.age (now : Int64) (e : Entry) : Int64 := (now - e.createdSteady) / 1000000

/-- Its ttl has run out; a ttl of 0 is unlimited. -/
def Overdue (now : Int64) (e : Entry) : Prop :=
  e.task.status.isTerminal = true ∧
    ∃ ttl, e.task.ttl = some ttl ∧ ttl ≠ 0 ∧ ttl ≤ e.age now

/-- What is left, with the count: the overdue entries have gone, from `order` too, and nothing
else has changed. -/
structure Sweeps (s : TaskStore) (now : Int64) (r : TaskStore × ℕ) : Prop where
  entries : ∀ id e, r.1.entries.lookup id = some e ↔
    s.entries.lookup id = some e ∧ ¬Overdue now e
  order : r.1.order = s.order.filter fun id => id ∈ r.1.entries
  listed : ∀ id, id ∈ r.1.order ↔ id ∈ r.1.entries
  count : r.2 = s.entries.keys.countP fun id => id ∉ r.1.entries

/-- The ids that the loop comes by and removes. -/
def expiredIds (now : Int64) (xs : List (Sigma fun _ : String => Entry)) : List String :=
  (xs.filter fun x => TaskStore.expired now x.2).map Sigma.fst

theorem gcLoop_spec (xs : List (Sigma fun _ : String => Entry)) (s : TaskStore) (removed : ℕ) :
    gcLoop now xs (s, removed) =
      ({ entries := Dict.filter (fun id _ => id ∉ expiredIds now xs) s.entries
         order := s.order.filter (· ∉ expiredIds now xs) },
        removed + (expiredIds now xs).length) := by
  induction xs generalizing s removed with
  | nil => simp [gcLoop, expiredIds, Dict.filter]
  | cons x xs ih =>
    obtain ⟨id, e⟩ := x
    by_cases he : TaskStore.expired now e = true
    · have hids : expiredIds now (⟨id, e⟩ :: xs) = id :: expiredIds now xs := by
        simp [expiredIds, he]
      rw [gcLoop, if_pos he, ih, hids, Dict.erase_eq_filter, Dict.filter_filter, List.filter_filter]
      simp only [List.mem_cons, not_or, List.length_cons, Bool.decide_and, Bool.and_comm,
        Nat.add_assoc, Nat.add_comm 1]
    · have hids : expiredIds now (⟨id, e⟩ :: xs) = expiredIds now xs := by
        simp [expiredIds, he]
      rw [gcLoop, if_neg he, ih, hids]

theorem mem_expiredIds (hxs : xs.Perm s.entries.entries) {id : String} :
    id ∈ expiredIds now xs ↔
      ∃ e, s.entries.lookup id = some e ∧ TaskStore.expired now e = true := by
  rw [expiredIds, List.mem_map]
  constructor
  · rintro ⟨⟨i, e⟩, hm, rfl⟩
    obtain ⟨hx, he⟩ := List.mem_filter.mp hm
    exact ⟨e, AList.mem_lookup_iff.mpr (hxs.mem_iff.mp hx), he⟩
  · rintro ⟨e, hl, he⟩
    have hx := hxs.mem_iff.mpr (AList.mem_lookup_iff.mp hl)
    exact ⟨⟨id, e⟩, List.mem_filter.mpr ⟨hx, he⟩, rfl⟩

theorem not_mem_expiredIds (hxs : xs.Perm s.entries.entries) {id : String} {e : Entry}
    (hl : s.entries.lookup id = some e) :
    id ∉ expiredIds now xs ↔ TaskStore.expired now e = false := by
  rw [mem_expiredIds hxs, hl]
  simp

/-- Whatever the order of the entries is, the loop sweeps as one filter would. -/
theorem gcLoop_eq_gcExpired (hxs : xs.Perm s.entries.entries) :
    gcLoop now xs (s, 0) = s.gcExpired now := by
  have hentries : Dict.filter (fun id _ => id ∉ expiredIds now xs) s.entries =
      Dict.filter (fun _ e => !TaskStore.expired now e) s.entries := by
    apply Dict.filter_congr
    intro id e hl
    simp [not_mem_expiredIds hxs hl]
  have horder : s.order.filter (· ∉ expiredIds now xs) =
      s.order.filter fun id => !(s.entries.lookup id).any (TaskStore.expired now) := by
    apply List.filter_congr
    intro id _
    simp only [mem_expiredIds hxs]
    cases s.entries.lookup id <;> simp
  have hcount : (expiredIds now xs).length =
      (Dict.list (Dict.filter (fun _ e => TaskStore.expired now e) s.entries)).length := by
    rw [expiredIds, Dict.list, List.length_map, List.length_map]
    exact (hxs.filter _).length_eq
  rw [gcLoop_spec, hentries, horder, hcount, Nat.zero_add]
  rfl

variable {id : String} {e : Entry}

theorem lookup_gcExpired :
    (s.gcExpired now).1.entries.lookup id = some e ↔
      s.entries.lookup id = some e ∧ TaskStore.expired now e = false := by
  constructor
  · intro h
    obtain ⟨hl, he⟩ := Dict.lookup_of_lookup_filter h
    exact ⟨hl, by simpa using he⟩
  · rintro ⟨hl, he⟩
    exact Dict.lookup_filter _ hl (by simp [he])

theorem mem_gcExpired :
    id ∈ (s.gcExpired now).1.entries ↔
      id ∈ s.entries ∧ (s.entries.lookup id).any (TaskStore.expired now) = false := by
  rw [Dict.mem_iff_lookup, Dict.mem_iff_lookup]
  simp only [lookup_gcExpired]
  constructor
  · rintro ⟨e, hl, he⟩
    exact ⟨⟨e, hl⟩, by simp [hl, he]⟩
  · rintro ⟨⟨e, hl⟩, he⟩
    exact ⟨e, hl, by simpa [hl] using he⟩

theorem order_gcExpired (hl : ∀ id, id ∈ s.order ↔ id ∈ s.entries) :
    (s.gcExpired now).1.order = s.order.filter fun id => id ∈ (s.gcExpired now).1.entries := by
  apply List.filter_congr
  intro id hid
  simp only [mem_gcExpired, ← hl id]
  simp [hid]

theorem count_gcExpired :
    (s.gcExpired now).2 = s.entries.keys.countP fun id => id ∉ (s.gcExpired now).1.entries := by
  have hgone : ∀ x ∈ s.entries.entries, TaskStore.expired now x.2 = true ↔
      x.1 ∉ (s.gcExpired now).1.entries := by
    rintro ⟨id, e⟩ hx
    have hl : s.entries.lookup id = some e := AList.mem_lookup_iff.mpr hx
    rw [mem_gcExpired, hl]
    simp [Dict.mem_iff_lookup, hl]
  change ((s.entries.entries.filter fun x => TaskStore.expired now x.2).map _).length =
    (s.entries.entries.map Sigma.fst).countP _
  rw [List.length_map, ← List.countP_eq_length_filter, List.countP_map]
  apply List.countP_congr
  intro x hx
  simpa using hgone x hx

theorem not_overdue_of_zero (h : e.task.ttl = some 0) : ¬Overdue now e := by
  rintro ⟨-, ttl, hsome, hne, -⟩
  rw [h, Option.some.injEq] at hsome
  exact hne hsome.symm

theorem expired_iff :
    TaskStore.expired now e = true ↔
      Overdue now e ∨
        e.task.status.isTerminal = true ∧ e.task.ttl = some 0 ∧ 0 ≤ e.age now := by
  simp only [TaskStore.expired, Overdue, Entry.age, Bool.and_eq_true, Option.any_eq_true,
    decide_eq_true_eq]
  constructor
  · rintro ⟨ht, ttl, httl, hle⟩
    by_cases hz : ttl = 0
    · subst hz
      exact .inr ⟨ht, httl, hle⟩
    · exact .inl ⟨ht, ttl, httl, hz, hle⟩
  · rintro (⟨ht, ttl, httl, -, hle⟩ | ⟨ht, httl, hle⟩)
    · exact ⟨ht, ttl, httl, hle⟩
    · exact ⟨ht, 0, httl, hle⟩

/-- gc_expired removes the overdue entries and no others, whatever the order in which it comes by
them, exactly when no task that is over and has an age has a ttl of 0. -/
theorem gc_sweeps_iff (h : storeMachine.Reachable Free s) (now : Int64)
    (hxs : xs.Perm s.entries.entries) :
    Sweeps s now (gcLoop now xs (s, 0)) ↔
      ∀ id e, s.entries.lookup id = some e → e.task.status.isTerminal = true →
        e.task.ttl = some 0 → e.age now < 0 := by
  have hlisted := listed_reachable h
  rw [gcLoop_eq_gcExpired hxs]
  constructor
  · intro hs id e hl ht httl
    by_contra hage
    have hexpired : TaskStore.expired now e = true :=
      expired_iff.mpr (.inr ⟨ht, httl, Int64.not_lt.mp hage⟩)
    have hleft := (lookup_gcExpired.mp ((hs.entries id e).mpr ⟨hl, not_overdue_of_zero httl⟩)).2
    rw [hexpired] at hleft
    cases hleft
  · intro hzero
    constructor
    · intro id e
      rw [lookup_gcExpired, ← Bool.not_eq_true]
      apply and_congr_right
      intro hl
      rw [expired_iff, or_iff_left]
      rintro ⟨ht, httl, hage⟩
      exact Int64.not_lt.mpr hage (hzero id e hl ht httl)
    · exact order_gcExpired hlisted
    · exact listed_step (.gcExpired now) hlisted
    · exact count_gcExpired

/-- The task of a server whose default ttl is `ttl`, once it has completed. -/
def finished (ttl : Option Int64) : TaskStore :=
  ((Op.complete "a" .null "t1").run ((Op.create "a" "t0" 0 ttl).run {}).1).1

theorem finished_reachable (ttl : Option Int64) : storeMachine.Reachable Free (finished ttl) := by
  have hcreated : storeMachine.Reachable Free ((Op.create "a" "t0" 0 ttl).run {}).1 :=
    .step (a := .create "a" "t0" 0 ttl) (.initial rfl) trivial rfl
  exact .step (a := .complete "a" .null "t1") hcreated trivial rfl

/-- A task that is to be kept for a minute, and goes when it is over. -/
theorem minute_over :
    Sweeps (finished (some 60000)) 60000000000
      (gcLoop 60000000000 (finished (some 60000)).entries.entries (finished (some 60000), 0)) := by
  refine (gc_sweeps_iff (finished_reachable _) _ (List.Perm.refl _)).mpr ?_
  intro id e hl ht httl
  have hm : id ∈ (finished (some 60000)).entries.keys :=
    AList.mem_keys.mpr (Dict.mem_iff_lookup.mpr ⟨e, hl⟩)
  have hkeys : (finished (some 60000)).entries.keys = ["a"] := by decide
  rw [hkeys, List.mem_singleton] at hm
  subst hm
  cases hl
  cases httl

/-- A task that is to be kept without a limit, and goes a millisecond after it was created. -/
theorem unlimited_task_removed :
    ∃ s, storeMachine.Reachable Free s ∧ ∃ now,
      (gcLoop now s.entries.entries (s, 0)).2 = 1 ∧
      ¬Sweeps s now (gcLoop now s.entries.entries (s, 0)) := by
  refine ⟨finished (some 0), finished_reachable _, 1000000, by decide, ?_⟩
  intro h
  obtain ⟨e, hl, httl⟩ :
      ∃ e, (finished (some 0)).entries.lookup "a" = some e ∧ e.task.ttl = some 0 := ⟨_, rfl, rfl⟩
  have hleft := (h.entries "a" e).mpr ⟨hl, not_overdue_of_zero httl⟩
  cases hleft

end Mcp.Tasks
