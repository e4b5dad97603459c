import Mcp.Server.TaskListing

/-! The grammar of cursors, the slice that a page is, and the second decoder of the TaskStore. -/
namespace Mcp.Server

open Tasks

section Grammar

variable {s : String} {cs : List Char} {c : Char} {value : UInt64}

/-- The value of the digits of a cursor. -/
def cursorValue (s : String) : ℕ := Nat.ofDigitChars 10 s.toList 0

/-- At most 20 digits that make a 64-bit number. -/
structure IsCursor (s : String) : Prop where
  length_le : s.length ≤ 20
  digits : ∀ c ∈ s.toList, c.isDigit = true
  value_lt : cursorValue s < 2 ^ 64

/-- The 64-bit number, if it is one. -/
def fits (n : ℤ) : Option UInt64 :=
  if 0 ≤ n ∧ n < 2 ^ 64 then some (UInt64.ofNat n.toNat) else none

/-- The loop of `decodeCursor`, which gives up where a 64-bit operation would wrap. -/
def decodeDigitsChecked (s : String) (value : UInt64) : List Char → Option (Except Exception UInt64)
  | [] => some (.ok value)
  | c :: cs =>
    if c < '0' ∨ '9' < c then some (invalidCursor s)
    else do
      let digit ← fits (c.toNat - '0'.toNat)
      let room ← fits (2 ^ 64 - 1 - digit.toNat)
      if room / 10 < value then return invalidCursor s
      else do
        let tens ← fits (value.toNat * 10)
        let next ← fits (tens.toNat + digit.toNat)
        decodeDigitsChecked s next cs

theorem fits_of_lt {n : ℤ} (h0 : 0 ≤ n) (hlt : n < 2 ^ 64) :
    ∃ u : UInt64, fits n = some u ∧ (u.toNat : ℤ) = n := by
  refine ⟨UInt64.ofNat n.toNat, if_pos ⟨h0, hlt⟩, ?_⟩
  have hn : n.toNat < 2 ^ 64 := by omega
  rw [UInt64.toNat_ofNat_of_lt' hn]
  omega

/-- Where a digit is let in, nothing wraps. -/
theorem checked_cons (hc : c.isDigit = true) (s : String) (cs : List Char) (value : UInt64) :
    decodeDigitsChecked s value (c :: cs) =
      if 2 ^ 64 ≤ 10 * value.toNat + (c.toNat - '0'.toNat) then some (invalidCursor s)
      else decodeDigitsChecked s (value * 10 + (c.toNat - '0'.toNat).toUInt64) cs := by
  obtain ⟨hdigit, hle⟩ := toNat_digit hc
  have hzero : '0'.toNat ≤ c.toNat := (le_of_isDigit hc).1
  obtain ⟨digit, hfits, hd⟩ := fits_of_lt (n := (c.toNat - '0'.toNat : ℤ)) (by omega) (by omega)
  obtain rfl : digit = (c.toNat - '0'.toNat).toUInt64 := UInt64.toNat_inj.mp (by omega)
  obtain ⟨room, hroom, hr⟩ := fits_of_lt
    (n := 2 ^ 64 - 1 - ((c.toNat - '0'.toNat).toUInt64.toNat : ℤ)) (by omega) (by omega)
  obtain rfl : room = UInt64.ofNat (2 ^ 64 - 1) - (c.toNat - '0'.toNat).toUInt64 := by
    apply UInt64.toNat_inj.mp
    rw [toNat_room hc]
    omega
  rw [decodeDigitsChecked, if_neg (isDigit_iff.mp hc), hfits, Option.bind_eq_bind,
    Option.bind_some, hroom, Option.bind_some]
  by_cases hguard : 2 ^ 64 ≤ 10 * value.toNat + (c.toNat - '0'.toNat)
  · rw [if_pos ((guard_iff hc).mpr hguard), if_pos hguard]
    rfl
  · obtain ⟨tens, htens, ht⟩ := fits_of_lt (n := (value.toNat * 10 : ℤ)) (by omega) (by omega)
    obtain ⟨next, hnext, hn⟩ := fits_of_lt
      (n := (tens.toNat + (c.toNat - '0'.toNat).toUInt64.toNat : ℤ)) (by omega) (by omega)
    have hvalue := toNat_next hc (Nat.not_le.mp hguard)
    obtain rfl : next = value * 10 + (c.toNat - '0'.toNat).toUInt64 := by
      apply UInt64.toNat_inj.mp
      omega
    rw [if_neg (fun h => hguard ((guard_iff hc).mp h)), if_neg hguard, htens, Option.bind_some,
      hnext, Option.bind_some]

/-- The decoder never wraps. -/
theorem checked_eq (s : String) (cs : List Char) (value : UInt64) :
    decodeDigitsChecked s value cs = some (decodeDigits s value cs) := by
  induction cs generalizing value with
  | nil => rfl
  | cons c cs ih =>
    by_cases hc : c.isDigit = true
    · rw [checked_cons hc, decodeDigits_cons hc, ih]
      split <;> rfl
    · have hrange : c < '0' ∨ '9' < c := by
        rw [isDigit_iff] at hc
        exact not_not.mp hc
      simp only [decodeDigitsChecked, decodeDigits, hrange, if_true]

/-- What is no string of digits, or too large, is rejected. -/
theorem decodeDigits_invalid
    (h : ¬ ((∀ c ∈ cs, c.isDigit = true) ∧ Nat.ofDigitChars 10 cs value.toNat < 2 ^ 64)) :
    decodeDigits s value cs = invalidCursor s := by
  induction cs generalizing value with
  | nil =>
    have hlt := value.toNat_lt
    exact absurd ⟨by simp, hlt⟩ h
  | cons c cs ih =>
    by_cases hc : c.isDigit = true
    · rw [decodeDigits_cons hc]
      split
      · rfl
      · next hlt =>
        have hnext := toNat_next hc (Nat.not_le.mp hlt)
        apply ih
        rintro ⟨hcs, hvalue⟩
        rw [hnext] at hvalue
        refine h ⟨?_, ?_⟩
        · simpa [hc] using hcs
        · rwa [Nat.ofDigitChars_cons]
    · have hrange : c < '0' ∨ '9' < c := by
        rw [isDigit_iff] at hc
        exact not_not.mp hc
      simp only [decodeDigits, hrange, if_true]

theorem decodeCursor_of_isCursor (hs : s ≠ "") (h : IsCursor s) :
    decodeCursor (some s) = .ok (UInt64.ofNat (cursorValue s)) := by
  have hempty : s.isEmpty = false := by simpa using hs
  have hlength := h.length_le
  have hdecode := decodeDigits_of_isDigit s 0 h.digits h.value_lt
  simp only [decodeCursor, hempty, Bool.false_eq_true, if_false, Nat.not_lt.mpr hlength, hdecode]
  rfl

theorem decodeCursor_invalid (hs : s ≠ "") (h : ¬ IsCursor s) :
    decodeCursor (some s) = invalidCursor s := by
  have hempty : s.isEmpty = false := by simpa using hs
  by_cases hlength : 20 < s.length
  · simp only [decodeCursor, hempty, Bool.false_eq_true, if_false, hlength, if_true]
  · simp only [decodeCursor, hempty, Bool.false_eq_true, if_false, hlength]
    apply decodeDigits_invalid
    rintro ⟨hdigits, hvalue⟩
    exact h ⟨Nat.not_lt.mp hlength, hdigits, hvalue⟩

/-- A cursor that is neither missing nor empty is decoded to its value if it has at most 20
characters, all of them digits, that make a 64-bit number; every other is rejected. On the way
nothing wraps, and every offset is read back. -/
theorem decodeCursor_grammar :
    decodeCursor none = .ok 0 ∧ decodeCursor (some "") = .ok 0 ∧
    (∀ s, s ≠ "" → (∀ v, decodeCursor (some s) = .ok v ↔ IsCursor s ∧ v.toNat = cursorValue s) ∧
      (¬ IsCursor s → decodeCursor (some s) =
        raise ErrorCode.invalidParams ("invalid pagination cursor: " ++ s))) ∧
    (∀ s value cs, decodeDigitsChecked s value cs = some (decodeDigits s value cs)) ∧
    (∀ v : UInt64, decodeCursor (some (toString v.toNat)) = .ok v) := by
  refine ⟨rfl, rfl, ?_, fun s value cs => checked_eq s cs value, ?_⟩
  · intro s hs
    refine ⟨?_, fun h => decodeCursor_invalid hs h⟩
    intro v
    constructor
    · intro hv
      by_cases h : IsCursor s
      · rw [decodeCursor_of_isCursor hs h] at hv
        refine ⟨h, ?_⟩
        rw [← Except.ok.inj hv]
        exact UInt64.toNat_ofNat_of_lt' h.value_lt
      · rw [decodeCursor_invalid hs h] at hv
        cases hv
    · rintro ⟨h, hv⟩
      rw [decodeCursor_of_isCursor hs h, ← hv, UInt64.ofNat_toNat]
  · intro v
    rw [decodeCursor_toString v.toNat_lt, UInt64.ofNat_toNat]

/-- The largest cursor, and the next one. -/
theorem largest_cursor :
    decodeCursor (some "18446744073709551615") = .ok 18446744073709551615 ∧
    decodeCursor (some "18446744073709551616") =
      raise ErrorCode.invalidParams "invalid pagination cursor: 18446744073709551616" := by
  obtain ⟨-, -, hgrammar, -, -⟩ := decodeCursor_grammar
  constructor
  · refine ((hgrammar _ (by decide)).1 _).mpr ⟨⟨by decide, by simp, by decide⟩, by decide⟩
  · exact (hgrammar _ (by decide)).2 fun h => absurd h.value_lt (by decide)

end Grammar

section Slices

variable {α : Type} {v : StdVector α} {offset pageSize : UInt64}

/-- The items of a page, by their indices. -/
def pageItems (items : List α) (offset pageSize : ℕ) : List α :=
  (items.zipIdx.filter fun x => offset ≤ x.2 ∧ (pageSize = 0 ∨ x.2 - offset < pageSize)).map
    Prod.fst

/-- The cursor of the next page, if items remain beyond this one. -/
def pageNext (length offset pageSize : ℕ) : Option String :=
  if pageSize ≠ 0 ∧ offset + pageSize < length then some (toString (offset + pageSize)) else none

/-- Past the offset the indices are in the page until its size is reached. -/
theorem filter_zipIdx (items : List α) (offset pageSize k : ℕ) :
    ((items.zipIdx k).filter fun x => offset ≤ x.2 ∧
      (pageSize = 0 ∨ x.2 - offset < pageSize)).map Prod.fst =
      if pageSize = 0 then items.drop (offset - k)
      else (items.drop (offset - k)).take (pageSize - (k - offset)) := by
  induction items generalizing k with
  | nil => simp
  | cons x items ih =>
    have hrest := ih (k + 1)
    rw [List.zipIdx_cons, List.filter_cons]
    by_cases hk : offset ≤ k
    · have hdrop : offset - k = 0 := by omega
      have hdrop' : offset - (k + 1) = 0 := by omega
      by_cases hp : pageSize = 0
      · simpa [hk, hp, hdrop, hdrop'] using hrest
      · by_cases hin : k - offset < pageSize
        · have htake : pageSize - (k - offset) = pageSize - (k + 1 - offset) + 1 := by omega
          simpa [hk, hp, hin, hdrop, hdrop', htake] using hrest
        · have htake : pageSize - (k - offset) = 0 := by omega
          have htake' : pageSize - (k + 1 - offset) = 0 := by omega
          simpa [hk, hp, hin, htake, htake'] using hrest
    · have hdrop : offset - k = offset - (k + 1) + 1 := by omega
      have hstart : k - offset = 0 := by omega
      have hstart' : k + 1 - offset = 0 := by omega
      simpa [hk, hdrop, hstart, hstart'] using hrest

theorem pageItems_eq (items : List α) (offset pageSize : ℕ) :
    pageItems items offset pageSize =
      if pageSize = 0 then items.drop offset else (items.drop offset).take pageSize := by
  have h := filter_zipIdx items offset pageSize 0
  rwa [Nat.sub_zero, Nat.zero_sub, Nat.sub_zero] at h

/-- Where the sum does not wrap, a page is a slice. -/
theorem paginate_of_fits (h : v.items.length ≤ offset.toNat ∨ pageSize = 0 ∨
    offset.toNat + pageSize.toNat < 2 ^ 64) :
    paginate v offset pageSize =
      .ok (pageItems v.items offset.toNat pageSize.toNat,
        pageNext v.items.length offset.toNat pageSize.toNat) := by
  rw [pageItems_eq]
  by_cases hend : v.items.length ≤ offset.toNat
  · have hsize : v.size ≤ offset := by rwa [UInt64.le_iff_toNat_le, toNat_size]
    have hnext : pageNext v.items.length offset.toNat pageSize.toNat = none :=
      if_neg fun h => by omega
    simp [paginate, hsize, hnext, List.drop_eq_nil_of_le hend]
  · have hlt : offset.toNat < v.items.length := Nat.not_le.mp hend
    by_cases hp : pageSize = 0
    · subst hp
      exact paginate_last hlt (.inl rfl) (by simpa using offset.toNat_lt)
    · have hsize : pageSize.toNat ≠ 0 := fun h => hp (UInt64.toNat_inj.mp h)
      have hfits := (h.resolve_left hend).resolve_left hp
      rw [if_neg hsize]
      by_cases hmore : offset.toNat + pageSize.toNat < v.items.length
      · rw [paginate_more hp hmore, pageNext, if_pos ⟨hsize, hmore⟩]
      · have htake : (v.items.drop offset.toNat).take pageSize.toNat =
            v.items.drop offset.toNat := by
          apply List.take_of_length_le
          rw [List.length_drop]
          omega
        rw [paginate_last hlt (.inr (by omega)) hfits, htake, pageNext, if_neg (by omega)]

/-- Where it wraps, the range is reversed. -/
theorem paginate_of_wraps (hlt : offset.toNat < v.items.length) (hp : pageSize ≠ 0)
    (hwraps : 2 ^ 64 ≤ offset.toNat + pageSize.toNat) :
    ∃ e, paginate v offset pageSize = .error e := by
  have hpage := pageSize.toNat_lt
  have hnext : (offset + pageSize).toNat < offset.toNat := by
    rw [UInt64.toNat_add]
    omega
  have hstart : ¬v.size ≤ offset := by
    rw [UInt64.le_iff_toNat_le, toNat_size]
    omega
  have hend : ¬v.size ≤ offset + pageSize := by
    rw [UInt64.le_iff_toNat_le, toNat_size]
    omega
  have hrange : ¬offset ≤ offset + pageSize := by
    rw [UInt64.le_iff_toNat_le]
    omega
  refine ⟨.std "cannot create std::vector larger than max_size()", ?_⟩
  simp [paginate, hstart, hend, hp, slice, hrange, bind, Except.bind]

/-- A page holds the items with its indices, and names the offset behind them if there are more,
unless the sum of the offset and the page size wraps within the items. -/
theorem paginate_slice_iff (v : StdVector α) (offset pageSize : UInt64) :
    paginate v offset pageSize =
      .ok (pageItems v.items offset.toNat pageSize.toNat,
        pageNext v.items.length offset.toNat pageSize.toNat) ↔
    v.items.length ≤ offset.toNat ∨ pageSize = 0 ∨
      offset.toNat + pageSize.toNat < 2 ^ 64 := by
  constructor
  · intro h
    by_contra hwraps
    obtain ⟨hlt, hp, hwraps⟩ : offset.toNat < v.items.length ∧ pageSize ≠ 0 ∧
        2 ^ 64 ≤ offset.toNat + pageSize.toNat := by
      simpa using hwraps
    obtain ⟨e, he⟩ := paginate_of_wraps hlt hp hwraps
    rw [he] at h
    cases h
  · exact paginate_of_fits

/-- A second page of two items, of the largest size there is. -/
theorem largest_page_throws :
    paginate ⟨["a", "b"], by decide⟩ 1 18446744073709551615 =
      .error (.std "cannot create std::vector larger than max_size()") ∧
    pageItems ["a", "b"] 1 18446744073709551615 = ["b"] ∧
    pageNext 2 1 18446744073709551615 = none :=
  ⟨rfl, by decide, by decide⟩

end Slices

section Tasks

variable {s : TaskStore} {cursor : Option String} {pageSize : UInt64} {n : ℕ}

/-- The stored tasks in the order in which they were created. -/
def storedTasks (s : TaskStore) : List Task := s.order.filterMap s.get

theorem filterMap_drop {α β : Type} {g : α → Option β} {xs : List α}
    (h : ∀ x ∈ xs, (g x).isSome = true) (n : ℕ) :
    (xs.drop n).filterMap g = (xs.filterMap g).drop n := by
  induction xs generalizing n with
  | nil => simp
  | cons x xs ih =>
    cases n with
    | zero => rfl
    | succ n =>
      obtain ⟨y, hy⟩ := Option.isSome_iff_exists.mp (h x (by simp))
      rw [List.drop_succ_cons, List.filterMap_cons_some hy, List.drop_succ_cons]
      exact ih (fun x' hx' => h x' (by simp [hx'])) n

theorem filterMap_take {α β : Type} {g : α → Option β} {xs : List α}
    (h : ∀ x ∈ xs, (g x).isSome = true) (n : ℕ) :
    (xs.take n).filterMap g = (xs.filterMap g).take n := by
  induction xs generalizing n with
  | nil => simp
  | cons x xs ih =>
    cases n with
    | zero => rfl
    | succ n =>
      obtain ⟨y, hy⟩ := Option.isSome_iff_exists.mp (h x (by simp))
      rw [List.take_succ_cons, List.filterMap_cons_some hy, List.filterMap_cons_some hy,
        List.take_succ_cons, ih (fun x' hx' => h x' (by simp [hx'])) n]

/-- Every id that `order` names has its task. -/
theorem isSome_get (h : Consistent s) : ∀ id ∈ s.order, (s.get id).isSome = true := by
  intro id hid
  obtain ⟨e, he⟩ := Dict.mem_iff_lookup.mp ((h.mem_order id).mp hid)
  rw [TaskStore.get, he]
  rfl

theorem length_storedTasks (h : Consistent s) : (storedTasks s).length = s.order.length :=
  List.filterMap_length_eq_length.mpr (isSome_get h)

/-- Behind a cursor that it can read, the store lists a slice of its tasks. -/
theorem list_of_decode_stored (h : Consistent s) (hp : pageSize.toNat < 2 ^ 32)
    (hcursor : TaskStore.decodeCursor cursor = .ok n) :
    s.list cursor pageSize =
      .ok ⟨pageItems (storedTasks s) n pageSize.toNat,
        pageNext (storedTasks s).length n pageSize.toNat⟩ := by
  have hlength := h.length_lt
  have hget := isSome_get h
  have hsize : pageSize = 0 ↔ pageSize.toNat = 0 := UInt64.toNat_inj.symm
  have hitems : (if pageSize.toNat = 0 then s.order.drop n
      else (s.order.drop n).take pageSize.toNat).filterMap s.get =
      pageItems (storedTasks s) n pageSize.toNat := by
    rw [pageItems_eq]
    split
    · exact filterMap_drop hget n
    · rw [filterMap_take fun id hid => hget id (List.mem_of_mem_drop hid), filterMap_drop hget]
      rfl
  rw [list_of_decode (by omega) hcursor, pageNext, length_storedTasks h, ← hitems]
  simp only [hsize, ne_eq]

/-- The store reads any number of digits. -/
theorem taskStore_decodeCursor_eq {c : String} (hc : c ≠ "") :
    TaskStore.decodeCursor (some c) =
      if c.toList.all Char.isDigit = true ∧ cursorValue c < 2 ^ 64 then .ok (cursorValue c)
      else TaskStore.invalidCursor c := by
  have hempty : c.isEmpty = false := by simpa using hc
  have hdecimal : TaskStore.decimal c = cursorValue c := decimal_eq_ofDigitChars c.toList 0
  have hdigit : TaskStore.isDigit = Char.isDigit := by
    funext ch
    simp [TaskStore.isDigit, Char.isDigit, Char.le_def]
  simp only [TaskStore.decodeCursor, hempty, Bool.false_eq_true, if_false, hdecimal, hdigit]
  cases hall : c.toList.all Char.isDigit with
  | true => simp only [Bool.not_true, Bool.false_eq_true, if_false, true_and]
  | false => simp only [Bool.not_false, Bool.false_eq_true, if_true, false_and, if_false]

/-- More digits than `decodeCursor` reads, of a number that it would take. -/
def Padded (cursor : Option String) : Prop :=
  ∃ c, cursor = some c ∧ 20 < c.length ∧ (∀ ch ∈ c.toList, ch.isDigit = true) ∧
    cursorValue c < 2 ^ 64

/-- The two decoders agree on all other cursors. -/
theorem decoders_agree (h : ¬ Padded cursor) :
    TaskStore.decodeCursor cursor = (decodeCursor cursor).map UInt64.toNat := by
  cases cursor with
  | none => rfl
  | some c =>
    by_cases hc : c = ""
    · subst hc
      rfl
    · rw [taskStore_decodeCursor_eq hc]
      by_cases hcursor : IsCursor c
      · have hall := List.all_eq_true.mpr hcursor.digits
        rw [decodeCursor_of_isCursor hc hcursor, if_pos ⟨hall, hcursor.value_lt⟩]
        exact congrArg _ (UInt64.toNat_ofNat_of_lt' hcursor.value_lt).symm
      · rw [decodeCursor_invalid hc hcursor]
        refine if_neg ?_
        rintro ⟨hall, hvalue⟩
        have hdigits := List.all_eq_true.mp hall
        by_cases hlength : 20 < c.length
        · exact h ⟨c, rfl, hlength, hdigits, hvalue⟩
        · exact hcursor ⟨Nat.not_lt.mp hlength, hdigits, hvalue⟩

/-- tasks/list pages like every other list, but for cursors that are padded to more than 20
digits: it takes them, and the others reject them. -/
theorem tasks_list_pages_iff (h : storeMachine.Reachable Minted s) (v : StdVector Task)
    (hv : v.items = storedTasks s) (hp : pageSize.toNat < 2 ^ 32) (cursor : Option String) :
    (s.list cursor pageSize).map (fun r => (r.tasks, r.nextCursor)) =
      listPage v pageSize cursor ↔ ¬ Padded cursor := by
  have hc := consistent_reachable h
  constructor
  · rintro heq ⟨c, rfl, hlength, hdigits, hvalue⟩
    have hne : c ≠ "" := by
      rintro rfl
      simp at hlength
    have hstore : TaskStore.decodeCursor (some c) = .ok (cursorValue c) := by
      rw [taskStore_decodeCursor_eq hne, if_pos ⟨List.all_eq_true.mpr hdigits, hvalue⟩]
    have hreject : decodeCursor (some c) = invalidCursor c :=
      decodeCursor_invalid hne fun hcursor => absurd hcursor.length_le (Nat.not_le.mpr hlength)
    rw [list_of_decode_stored hc hp hstore, listPage, hreject] at heq
    cases heq
  · intro hpadded
    have hagree := decoders_agree hpadded
    cases hoffset : decodeCursor cursor with
    | error e =>
      rw [hoffset] at hagree
      simp only [listPage, TaskStore.list, hoffset, hagree, Except.map, bind, Except.bind]
    | ok offset =>
      rw [hoffset] at hagree
      have hlength := hc.length_lt
      have hstored := length_storedTasks hc
      have hfits : v.items.length ≤ offset.toNat ∨ pageSize = 0 ∨
          offset.toNat + pageSize.toNat < 2 ^ 64 := by
        rw [hv]
        omega
      rw [list_of_decode_stored hc hp hagree, listPage, hoffset]
      change _ = paginate v offset pageSize
      rw [paginate_of_fits hfits, hv]
      rfl

/-- A padded cursor that both can read. -/
theorem second_task_listed : (twoTasks.list (some "01") 1).map (fun r => (r.tasks, r.nextCursor)) =
    listPage ⟨storedTasks twoTasks, by decide⟩ 1 (some "01") := by
  have hone : storeMachine.Reachable Minted oneTask :=
    .step (a := .create "a" "t0" 0 none) (.initial rfl) ⟨by decide, by decide⟩ rfl
  have htwo : storeMachine.Reachable Minted twoTasks :=
    .step (a := .create "b" "t1" 0 none) hone ⟨by decide, by decide⟩ rfl
  refine (tasks_list_pages_iff htwo _ rfl (by decide) _).mpr ?_
  rintro ⟨c, hc, hlength, -⟩
  cases hc
  exact absurd hlength (by decide)

/-- And one that only the store can: 21 zeros. -/
theorem zeros_listed :
    storeMachine.Reachable Minted oneTask ∧
    (oneTask.list (some "000000000000000000000") 1).map (fun r => (r.tasks, r.nextCursor)) =
      .ok ([mintedTask "a" "t0"], none) ∧
    listPage ⟨storedTasks oneTask, by decide⟩ 1 (some "000000000000000000000") =
      raise ErrorCode.invalidParams "invalid pagination cursor: 000000000000000000000" :=
  ⟨.step (a := .create "a" "t0" 0 none) (.initial rfl) ⟨by decide, by decide⟩ rfl, rfl, rfl⟩

end Tasks

end Mcp.Server
