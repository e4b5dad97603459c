import Mcp.Server.Handlers

/-! A client that follows the cursors of a list request gets everything that is registered. -/
namespace Mcp.Server

open Threads

section Pages

variable {α : Type} {v : StdVector α} {offset pageSize : UInt64}

theorem le_ofDigitChars (cs : List Char) (n : ℕ) : n ≤ Nat.ofDigitChars 10 cs n := by
  rw [Nat.ofDigitChars_eq_ofDigitChars_zero]
  have hpow : 1 ≤ 10 ^ cs.length := Nat.one_le_pow _ _ (by omega)
  calc n = 1 * n := (Nat.one_mul n).symm
    _ ≤ 10 ^ cs.length * n := Nat.mul_le_mul_right n hpow
    _ ≤ _ := Nat.le_add_right _ _

theorem le_of_isDigit {c : Char} (h : c.isDigit = true) : '0' ≤ c ∧ c ≤ '9' := by
  simpa [Char.isDigit, Char.le_def] using h

/-- The digit that is taken off a character, as a 64-bit number. -/
theorem toNat_digit {c : Char} (h : c.isDigit = true) :
    ((c.toNat - '0'.toNat).toUInt64).toNat = c.toNat - '0'.toNat ∧ c.toNat - '0'.toNat ≤ 9 := by
  obtain ⟨h0, h9⟩ := le_of_isDigit h
  have hle : c.toNat - '0'.toNat ≤ 9 := Nat.sub_le_sub_right (show c.toNat ≤ 57 from h9) 48
  refine ⟨?_, hle⟩
  rw [Nat.toUInt64_eq, UInt64.toNat_ofNat_of_lt']
  exact hle.trans_lt (by decide)

theorem isDigit_iff {c : Char} : c.isDigit = true ↔ ¬ (c < '0' ∨ '9' < c) := by
  simp [Char.isDigit, Char.lt_def]

/-- The room that the guard divides by ten. -/
theorem toNat_room {c : Char} (hc : c.isDigit = true) :
    (UInt64.ofNat (2 ^ 64 - 1) - (c.toNat - '0'.toNat).toUInt64).toNat =
      2 ^ 64 - 1 - (c.toNat - '0'.toNat) := by
  obtain ⟨hdigit, hle⟩ := toNat_digit hc
  rw [UInt64.toNat_sub_of_le, hdigit]
  · rfl
  · rw [UInt64.le_iff_toNat_le, hdigit]
    exact hle.trans (by decide)

/-- The guard lets a digit in if the value with it is a 64-bit number. -/
theorem guard_iff {c : Char} {value : UInt64} (hc : c.isDigit = true) :
    (UInt64.ofNat (2 ^ 64 - 1) - (c.toNat - '0'.toNat).toUInt64) / 10 < value ↔
      2 ^ 64 ≤ 10 * value.toNat + (c.toNat - '0'.toNat) := by
  obtain ⟨-, hle⟩ := toNat_digit hc
  have hten : (10 : UInt64).toNat = 10 := rfl
  rw [UInt64.lt_iff_toNat_lt, UInt64.toNat_div, toNat_room hc, hten]
  omega

/-- One turn of the loop over a digit. -/
theorem decodeDigits_cons {c : Char} (hc : c.isDigit = true) (s : String) (cs : List Char)
    (value : UInt64) : decodeDigits s value (c :: cs) =
      if 2 ^ 64 ≤ 10 * value.toNat + (c.toNat - '0'.toNat) then invalidCursor s
      else decodeDigits s (value * 10 + (c.toNat - '0'.toNat).toUInt64) cs := by
  simp only [decodeDigits, isDigit_iff.mp hc, if_false, guard_iff hc]

/-- A digit that leaves the value below the limit is taken in without wrapping. -/
theorem toNat_next {c : Char} {value : UInt64} (hc : c.isDigit = true)
    (hlt : 10 * value.toNat + (c.toNat - '0'.toNat) < 2 ^ 64) :
    (value * 10 + (c.toNat - '0'.toNat).toUInt64).toNat =
      10 * value.toNat + (c.toNat - '0'.toNat) := by
  obtain ⟨hdigit, -⟩ := toNat_digit hc
  have hten : (10 : UInt64).toNat = 10 := rfl
  rw [UInt64.toNat_add, UInt64.toNat_mul, hdigit, hten]
  omega

/-- The accumulator never wraps on digits whose value fits. -/
theorem decodeDigits_of_isDigit (s : String) {cs : List Char} (value : UInt64)
    (hcs : ∀ c ∈ cs, c.isDigit = true) (hlt : Nat.ofDigitChars 10 cs value.toNat < 2 ^ 64) :
    decodeDigits s value cs = .ok (UInt64.ofNat (Nat.ofDigitChars 10 cs value.toNat)) := by
  induction cs generalizing value with
  | nil => simp [decodeDigits]
  | cons c cs ih =>
    rw [Nat.ofDigitChars_cons] at hlt ⊢
    have hc := hcs c (by simp)
    have hfits := Nat.lt_of_le_of_lt (le_ofDigitChars cs _) hlt
    have hnext := toNat_next hc hfits
    rw [decodeDigits_cons hc, if_neg (Nat.not_le.mpr hfits)]
    rw [← hnext] at hlt ⊢
    exact ih _ (fun d hd => hcs d (by simp [hd])) hlt

/-- The decoder reads back every offset that `std::to_string` prints. -/
theorem decodeCursor_toString {n : ℕ} (hn : n < 2 ^ 64) :
    decodeCursor (some (toString n)) = .ok (UInt64.ofNat n) := by
  have hempty : (toString n).isEmpty = false := by
    simp
  have hlength : (toString n).length ≤ 20 := by
    rw [Nat.toString_eq_repr, Nat.length_repr_le_iff (by omega)]
    omega
  have hvalue : Nat.ofDigitChars 10 (toString n).toList 0 = n := by
    simp
  have hdigits : ∀ c ∈ (toString n).toList, c.isDigit = true := by
    intro c hc
    rw [Nat.toString_eq_repr, Nat.toList_repr] at hc
    exact Nat.isDigit_of_mem_toDigits (by omega) (by omega) hc
  have hdecode := decodeDigits_of_isDigit (toString n) 0 hdigits (by
    rw [UInt64.toNat_zero, hvalue]
    exact hn)
  rw [UInt64.toNat_zero, hvalue] at hdecode
  simp only [decodeCursor, hempty, Bool.false_eq_true, if_false, Nat.not_lt.mpr hlength, hdecode]

theorem toNat_size (v : StdVector α) : v.size.toNat = v.items.length := by
  have hv := v.length_lt
  rw [StdVector.size, Nat.toUInt64_eq, UInt64.toNat_ofNat_of_lt']
  simp [UInt64.size]
  omega

theorem slice_of_le {first last : UInt64} (h : first ≤ last) :
    slice v first last = .ok ((v.items.drop first.toNat).take (last.toNat - first.toNat)) := by
  simp [slice, h]

theorem paginate_empty (hv : v.items = []) : paginate v offset pageSize = .ok ([], none) := by
  have hsize : v.size ≤ offset := by
    rw [UInt64.le_iff_toNat_le, toNat_size, hv]
    exact Nat.zero_le _
  simp [paginate, hsize]

/-- Short of the end, a page is full and names the offset behind it. -/
theorem paginate_more (hp : pageSize ≠ 0)
    (hlt : offset.toNat + pageSize.toNat < v.items.length) :
    paginate v offset pageSize =
      .ok ((v.items.drop offset.toNat).take pageSize.toNat,
        some (toString (offset.toNat + pageSize.toNat))) := by
  have hv := v.length_lt
  have hnext : (offset + pageSize).toNat = offset.toNat + pageSize.toNat := by
    rw [UInt64.toNat_add]
    omega
  have hstart : ¬v.size ≤ offset := by
    rw [UInt64.le_iff_toNat_le, toNat_size]
    omega
  have hend : ¬v.size ≤ offset + pageSize := by
    rw [UInt64.le_iff_toNat_le, toNat_size, hnext]
    omega
  have hrange : offset ≤ offset + pageSize := by
    rw [UInt64.le_iff_toNat_le, hnext]
    omega
  simp [paginate, hstart, hend, hp, slice_of_le hrange, hnext, bind, Except.bind, pure,
    Except.pure]

/-- The page that reaches the end holds the rest and names nothing. -/
theorem paginate_last (hlt : offset.toNat < v.items.length)
    (hle : pageSize = 0 ∨ v.items.length ≤ offset.toNat + pageSize.toNat)
    (hfits : offset.toNat + pageSize.toNat < 2 ^ 64) :
    paginate v offset pageSize = .ok (v.items.drop offset.toNat, none) := by
  have hstart : ¬v.size ≤ offset := by
    rw [UInt64.le_iff_toNat_le, toNat_size]
    omega
  have hend : pageSize = 0 ∨ v.size ≤ offset + pageSize := by
    rcases hle with hp | hle
    · exact .inl hp
    · right
      rw [UInt64.le_iff_toNat_le, toNat_size, UInt64.toNat_add]
      omega
  have hrange : offset ≤ v.size := by
    rw [UInt64.le_iff_toNat_le, toNat_size]
    omega
  have hrest : (v.items.drop offset.toNat).take (v.items.length - offset.toNat) =
      v.items.drop offset.toNat := by
    rw [← List.length_drop, List.take_length]
  simp [paginate, hstart, hend, slice_of_le hrange, toNat_size, hrest, bind, Except.bind, pure,
    Except.pure]

/-- The cursor of the page at position `n`. -/
def cursorAt (n : ℕ) : Option String := if n = 0 then none else some (toString n)

theorem cursorAt_of_pos {n : ℕ} (hn : 0 < n) : cursorAt n = some (toString n) := by
  simp [cursorAt, Nat.pos_iff_ne_zero.mp hn]

theorem listPage_cursorAt {n : ℕ} (hn : n < 2 ^ 64) :
    listPage v pageSize (cursorAt n) = paginate v (UInt64.ofNat n) pageSize := by
  unfold cursorAt
  split
  · next h =>
    subst h
    rfl
  · simp only [listPage, decodeCursor_toString hn, bind, Except.bind]

theorem listPage_more {n : ℕ} (hp : pageSize ≠ 0) (hn : n + pageSize.toNat < v.items.length) :
    listPage v pageSize (cursorAt n) =
      .ok ((v.items.drop n).take pageSize.toNat, some (toString (n + pageSize.toNat))) := by
  have hv := v.length_lt
  have hoffset : (UInt64.ofNat n).toNat = n := UInt64.toNat_ofNat_of_lt' (show n < 2 ^ 64 by omega)
  rw [listPage_cursorAt (by omega), paginate_more hp (by rwa [hoffset]), hoffset]

theorem listPage_last {n : ℕ} (hn : n < v.items.length)
    (hle : pageSize = 0 ∨ v.items.length ≤ n + pageSize.toNat)
    (hfits : n + pageSize.toNat < 2 ^ 64) :
    listPage v pageSize (cursorAt n) = .ok (v.items.drop n, none) := by
  have hv := v.length_lt
  have hoffset : (UInt64.ofNat n).toNat = n := UInt64.toNat_ofNat_of_lt' (show n < 2 ^ 64 by omega)
  rw [listPage_cursorAt (by omega), paginate_last (by rwa [hoffset]) (by rwa [hoffset])
    (by rwa [hoffset]), hoffset]

/-- Following the cursors from the first page on ends, and goes through the items once each, in
order, in pages that are full up to the last. -/
theorem exists_pages (v : StdVector α) (pageSize : UInt64) :
    ∃ pages, Paged.Traversal (listPage v pageSize) none pages ∧
      (∀ page ∈ pages, (pageSize ≠ 0 → page.length ≤ pageSize.toNat) ∧
        (page = [] → v.items = [])) ∧
      pages.flatten = v.items := by
  have hv := v.length_lt
  by_cases hnil : v.items = []
  · refine ⟨[[]], .last (paginate_empty hnil), ?_, by simp [hnil]⟩
    simp [hnil]
  have hpos : 0 < v.items.length := List.length_pos_iff.mpr hnil
  by_cases hone : pageSize = 0 ∨ v.items.length ≤ pageSize.toNat
  · have hpage : listPage v pageSize none = .ok (v.items, none) :=
      listPage_last hpos (by simpa using hone) (by simpa using pageSize.toNat_lt)
    refine ⟨[v.items], .last hpage, ?_, by simp⟩
    intro page hpage
    obtain rfl : page = v.items := by simpa using hpage
    exact ⟨fun hp => by simpa [hp] using hone, id⟩
  · obtain ⟨hp, hshort⟩ := not_or.mp hone
    have hsize : 0 < pageSize.toNat :=
      Nat.pos_iff_ne_zero.mpr fun h => hp (UInt64.toNat_inj.mp h)
    obtain ⟨pages, ht, hpages, hflat⟩ :=
      Paged.exists_traversal hsize (fun _ => cursorAt_of_pos) (fun _ => listPage_more hp)
        (fun n hn hle => listPage_last hn (.inr hle) (by omega)) 0 hpos
    refine ⟨pages, ht, ?_, by simpa using hflat⟩
    intro page hpage
    obtain ⟨hle, hne⟩ := hpages page hpage
    exact ⟨fun _ => hle, fun h => absurd h hne⟩

end Pages

/-- The four list requests. -/
inductive Listing where
  | tools
  | resources
  | resourceTemplates
  | prompts

namespace Listing

def handler (cfg : Settings) : Listing → Json → Handler Json
  | tools => handleListTools cfg
  | resources => handleListResources cfg
  | resourceTemplates => handleListResourceTemplates cfg
  | prompts => handleListPrompts cfg

/-- The member of the result that holds the page. -/
def member : Listing → String
  | tools => "tools"
  | resources => "resources"
  | resourceTemplates => "resourceTemplates"
  | prompts => "prompts"

/-- What is registered, in the order of iteration and as it goes on the wire. -/
def registered (registry : Registry) : Listing → List Json
  | tools => (Dict.list registry.tools.entries).map fun entry => .of entry.descriptor
  | resources => (Dict.list registry.resources.entries).map fun entry => .of entry.descriptor
  | resourceTemplates => registry.resourceTemplates.items.map Json.of
  | prompts => (Dict.list registry.prompts.entries).map fun entry => .of entry.descriptor

end Listing

/-- A server that has been initialized and whose registrations stay what they are. -/
def frozen (registry : Registry) : (o : Op) → Option o.Ans
  | .loadInitialized => some true
  | .read => some registry
  | _ => none

/-- The params of a list request; without a cursor they may be left out. -/
def listParams (leftOut : Bool) : Option String → Json
  | none => if leftOut then .null else .emptyObject
  | some cursor => .of { cursor := some cursor : ListRequestParams }

/-- The page and the cursor that a client reads in the result. -/
def readPage (member : String) (j : Json) : Except Exception (List Json × Option String) := do
  let page ← getAt (List Json) j member
  let next ← takeOptional String j "nextCursor"
  return (page, next)

/-- A list request, its handler's reply, and what the client reads there. -/
def Listing.fetch (l : Listing) (cfg : Settings) (registry : Registry) (leftOut : Bool)
    (cursor : Option String) : Except Exception (List Json × Option String) :=
  match (l.handler cfg (listParams leftOut cursor)).run.eval (frozen registry) with
  | some (.ok j) => readPage l.member j
  | some (.error e) => .error e
  | none => .error .other

section Requests

variable {α : Type} {cfg : Settings} {registry : Registry} {collect : Registry → StdVector α}
  {result : List α → Option String → Json} {leftOut : Bool} {cursor next : Option String}
  {page : List α} {l : Listing}

theorem handleList_listParams : handleList cfg collect result (listParams leftOut cursor) = (do
    requireInitialized
    let registry : Registry ← call .read
    let (page, next) ← listPage (collect registry) cfg.pageSize cursor
    return result page next) := by
  cases cursor with
  | none => cases leftOut <;> rfl
  | some s => rfl

theorem eval_handleList
    (h : listPage (collect registry) cfg.pageSize cursor = .ok (page, next)) :
    (handleList cfg collect result (listParams leftOut cursor)).run.eval (frozen registry) =
      some (.ok (result page next)) := by
  rw [handleList_listParams]
  -- what is left to run after the check and the load
  change ((liftM (listPage (collect registry) cfg.pageSize cursor) >>= fun p =>
    return result p.1 p.2 : Handler Json).run).eval (frozen registry) = _
  rw [h]
  rfl

theorem get_array_json (xs : List Json) : (Json.array xs).get (List Json) = .ok xs := by
  change xs.mapM (Json.get Json) = .ok xs
  induction xs with
  | nil => rfl
  | cons x xs ih => simp [ih, bind, Except.bind, pure, Except.pure]

theorem readPage_listResultToJson [ToJson α] {member : String} (hm : member ≠ "nextCursor") :
    readPage member (listResultToJson member page next none) = .ok (page.map Json.of, next) := by
  have hpage : (listResultToJson member page next none).find member =
      some (.array (page.map Json.of)) := by
    cases next <;> simp [listResultToJson, putOptional, Json.find_set, hm] <;> rfl
  have hnext : (listResultToJson member page next none).find "nextCursor" =
      next.map .string := by
    cases next <;> simp [listResultToJson, putOptional, Json.find_set, hm.symm]
    rfl
  have htake : engaged String (next.map .string) = .ok next := by
    cases next <;> rfl
  simp only [readPage, getAt, takeOptional, hpage, hnext, get_array_json, htake]
  rfl

/-- A page of the collected items is what the client gets. -/
theorem fetch_of_listPage [ToJson α]
    (hhandler : l.handler cfg = handleList cfg collect fun page next =>
      listResultToJson l.member page next none)
    (h : listPage (collect registry) cfg.pageSize cursor = .ok (page, next)) :
    l.fetch cfg registry leftOut cursor = .ok (page.map Json.of, next) := by
  have hm : l.member ≠ "nextCursor" := by
    cases l <;> decide
  unfold Listing.fetch
  rw [hhandler, eval_handleList h]
  exact readPage_listResultToJson hm

theorem exists_fetched_pages [ToJson α]
    (hhandler : l.handler cfg = handleList cfg collect fun page next =>
      listResultToJson l.member page next none)
    (hitems : (collect registry).items.map Json.of = l.registered registry) :
    ∃ pages, Paged.Traversal (l.fetch cfg registry leftOut) none pages ∧
      (∀ page ∈ pages, (cfg.pageSize ≠ 0 → page.length ≤ cfg.pageSize.toNat) ∧
        (page = [] → l.registered registry = [])) ∧
      pages.flatten = l.registered registry := by
  obtain ⟨pages, ht, hpages, hflat⟩ := exists_pages (collect registry) cfg.pageSize
  refine ⟨_, ht.map fun _ _ _ => fetch_of_listPage hhandler, ?_, ?_⟩
  · intro page hpage
    obtain ⟨items, hmem, rfl⟩ := List.mem_map.mp hpage
    obtain ⟨hle, hne⟩ := hpages items hmem
    refine ⟨fun hp => by simpa using hle hp, ?_⟩
    intro hnil
    rw [← hitems, hne (List.map_eq_nil_iff.mp hnil), List.map_nil]
  · rw [← List.map_flatten, hflat, hitems]

/-- Following the cursors of a list request from the first page on ends after finitely many
requests, none of them rejected. There is one way to do so; its pages are within the page size and
not empty unless nothing is registered; together they are all that is registered, in order. -/
theorem listing_complete (l : Listing) (cfg : Settings) (registry : Registry) (leftOut : Bool) :
    ∃ pages, Paged.Traversal (l.fetch cfg registry leftOut) none pages ∧
      (∀ pages', Paged.Traversal (l.fetch cfg registry leftOut) none pages' → pages' = pages) ∧
      (∀ page ∈ pages, (cfg.pageSize ≠ 0 → page.length ≤ cfg.pageSize.toNat) ∧
        (page = [] → l.registered registry = [])) ∧
      pages.flatten = l.registered registry := by
  obtain ⟨pages, ht, hrest⟩ : ∃ pages,
      Paged.Traversal (l.fetch cfg registry leftOut) none pages ∧
        (∀ page ∈ pages, (cfg.pageSize ≠ 0 → page.length ≤ cfg.pageSize.toNat) ∧
          (page = [] → l.registered registry = [])) ∧
        pages.flatten = l.registered registry := by
    cases l with
    | tools => exact exists_fetched_pages rfl (by simp [Registered.collect, Listing.registered])
    | resources =>
      exact exists_fetched_pages rfl (by simp [Registered.collect, Listing.registered])
    | resourceTemplates => exact exists_fetched_pages rfl rfl
    | prompts => exact exists_fetched_pages rfl (by simp [Registered.collect, Listing.registered])
  exact ⟨pages, ht, fun pages' ht' => ht'.unique ht, hrest⟩

end Requests

end Mcp.Server
