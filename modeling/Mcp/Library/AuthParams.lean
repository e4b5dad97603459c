import Mathlib.Data.List.Basic
import Mathlib.Data.List.TakeWhile
import Mathlib.Data.Nat.Notation

/-! A scheme and a comma-separated list of parameters with quoted values: how they are written, and
a reader of them. -/
namespace AuthParams

/-- A name and a value. -/
abbrev Param := List Char × List Char

/-- What a name consists of. -/
def isTchar (c : Char) : Bool := c.isAlphanum || c ∈ "!#$%&'*+-.^_`|~".toList

def isBlank (c : Char) : Bool := c == ' ' || c == '\t'

def Param.text (p : Param) : List Char := p.1 ++ '=' :: '"' :: p.2 ++ ['"']

def render (scheme : List Char) (ps : List Param) : List Char :=
  scheme ++ ' ' :: [',', ' '].intercalate (ps.map Param.text)

/-- What stands before the closing quote, and what follows that; a backslash hides a quote. -/
def readQuoted : List Char → Option (List Char × List Char)
  | [] => none
  | '"' :: rest => some ([], rest)
  | '\\' :: c :: rest => (readQuoted rest).map fun (value, rest) => (c :: value, rest)
  | c :: rest => (readQuoted rest).map fun (value, rest) => (c :: value, rest)

def readParam (s : List Char) : Option (Param × List Char) :=
  match s.takeWhile isTchar, s.dropWhile isTchar with
  | c :: cs, '=' :: '"' :: rest =>
    (readQuoted rest).map fun (value, rest) => ((c :: cs, value), rest)
  | _, _ => none

/-- At most so many parameters, with blanks allowed around a comma. -/
def readParams : ℕ → List Char → Option (List Param)
  | 0, _ => none
  | n + 1, s =>
    match readParam s with
    | none => none
    | some (p, rest) =>
      match rest.dropWhile isBlank with
      | [] => some [p]
      | ',' :: rest => (readParams n (rest.dropWhile isBlank)).map (p :: ·)
      | _ => none

/-- The scheme and the parameters of a text, if it consists of nothing else. -/
def read (s : List Char) : Option (List Char × List Param) :=
  match s.dropWhile isTchar with
  | ' ' :: rest => (readParams s.length rest).map (s.takeWhile isTchar, ·)
  | _ => none

/-- The name is one, and the value has nothing that would end it or hide its end. -/
structure Param.Plain (p : Param) : Prop where
  name : p.1 ≠ [] ∧ ∀ c ∈ p.1, isTchar c = true
  value : '"' ∉ p.2 ∧ '\\' ∉ p.2

variable {p : Param} {ps : List Param} {rest scheme name value : List Char} {n : ℕ}

theorem readQuoted_append (hquote : '"' ∉ value) (hslash : '\\' ∉ value) (rest : List Char) :
    readQuoted (value ++ '"' :: rest) = some (value, rest) := by
  induction value with
  | nil => rfl
  | cons c cs ih =>
    have hq : c ≠ '"' := fun h => hquote (by simp [h])
    have hs : c ≠ '\\' := fun h => hslash (by simp [h])
    have hcs := ih (fun h => hquote (by simp [h])) (fun h => hslash (by simp [h]))
    rw [List.cons_append, readQuoted.eq_4 _ _ hq (fun _ _ h => absurd h hs), hcs]
    rfl

theorem takeWhile_name (h : ∀ c ∈ name, isTchar c = true) {c : Char} (hc : isTchar c = false)
    (rest : List Char) :
    (name ++ c :: rest).takeWhile isTchar = name ∧
      (name ++ c :: rest).dropWhile isTchar = c :: rest := by
  constructor
  · rw [List.takeWhile_append_of_pos h, List.takeWhile_cons_of_neg (by simp [hc]), List.append_nil]
  · rw [List.dropWhile_append_of_pos h, List.dropWhile_cons_of_neg (by simp [hc])]

theorem readParam_text (h : p.Plain) (rest : List Char) :
    readParam (p.text ++ rest) = some (p, rest) := by
  obtain ⟨name, value⟩ := p
  obtain ⟨⟨hne, hname⟩, hquote, hslash⟩ := h
  dsimp only at hne hname hquote hslash
  obtain ⟨c, cs, rfl⟩ := List.exists_cons_of_ne_nil hne
  have htext : Param.text (c :: cs, value) ++ rest =
      (c :: cs) ++ '=' :: '"' :: (value ++ '"' :: rest) := by simp [Param.text]
  obtain ⟨htake, hdrop⟩ := takeWhile_name hname (c := '=') (by decide)
    ('"' :: (value ++ '"' :: rest))
  simp only [readParam, htext, htake, hdrop, readQuoted_append hquote hslash, Option.map_some]

/-- A parameter does not begin with a blank. -/
theorem dropWhile_text (h : p.Plain) (rest : List Char) :
    (p.text ++ rest).dropWhile isBlank = p.text ++ rest := by
  obtain ⟨name, value⟩ := p
  obtain ⟨⟨hne, hname⟩, -⟩ := h
  dsimp only at hne hname
  obtain ⟨c, cs, rfl⟩ := List.exists_cons_of_ne_nil hne
  have hc : isBlank c = false := by
    rw [← Bool.not_eq_true, isBlank, Bool.or_eq_true, beq_iff_eq, beq_iff_eq]
    have htchar := hname c (by simp)
    rintro (rfl | rfl) <;> revert htchar <;> decide
  rw [Param.text]
  exact List.dropWhile_cons_of_neg (by simp [hc])

theorem readParams_text (hne : ps ≠ []) (h : ∀ p ∈ ps, p.Plain) (hn : ps.length ≤ n) :
    readParams n ([',', ' '].intercalate (ps.map Param.text)) = some ps := by
  induction ps generalizing n with
  | nil => exact absurd rfl hne
  | cons p ps ih =>
    obtain ⟨n, rfl⟩ : ∃ m, n = m + 1 :=
      Nat.exists_eq_add_one.mpr (Nat.lt_of_lt_of_le (by simp) hn)
    have hp := readParam_text (h p (by simp))
    cases ps with
    | nil =>
      have hlast := hp []
      rw [List.append_nil] at hlast
      simp [readParams, hlast]
    | cons q qs =>
      have hrest := ih (n := n) (by simp) (fun q hq => h q (List.mem_cons_of_mem p hq))
        (Nat.le_of_succ_le_succ hn)
      have hblank : ([',', ' '].intercalate ((q :: qs).map Param.text)).dropWhile isBlank =
          [',', ' '].intercalate ((q :: qs).map Param.text) := by
        have hq := dropWhile_text (h q (by simp))
        cases qs with
        | nil => simpa using hq []
        | cons r rs =>
          rw [List.map_cons, List.map_cons, List.intercalate_cons_cons, List.append_assoc]
          exact hq _
      rw [List.map_cons, List.map_cons, List.intercalate_cons_cons, ← List.map_cons,
        List.append_assoc, readParams, hp]
      generalize [',', ' '].intercalate ((q :: qs).map Param.text) = s at *
      have hcomma : ([',', ' '] ++ s).dropWhile isBlank = ',' :: ' ' :: s := rfl
      have hspace : (' ' :: s).dropWhile isBlank = s := hblank
      simp only [hcomma, hspace, hrest, Option.map_some]

theorem length_le (ps : List Param) :
    ps.length ≤ ([',', ' '].intercalate (ps.map Param.text)).length := by
  have htext : ∀ p : Param, 0 < p.text.length := by
    intro p
    rw [Param.text, List.length_append, List.length_singleton]
    exact Nat.succ_pos _
  induction ps with
  | nil => exact Nat.zero_le _
  | cons p ps ih =>
    have hp := htext p
    cases ps with
    | nil => simpa using Nat.succ_le_of_lt hp
    | cons q qs =>
      rw [List.map_cons, List.map_cons, List.intercalate_cons_cons, ← List.map_cons,
        List.append_assoc, List.length_append, List.length_append, List.length_cons]
      omega

/-- Whatever the values are, what is written is read back, and nothing else. -/
theorem read_render (hscheme : ∀ c ∈ scheme, isTchar c = true) (hne : ps ≠ [])
    (h : ∀ p ∈ ps, p.Plain) : read (render scheme ps) = some (scheme, ps) := by
  obtain ⟨htake, hdrop⟩ := takeWhile_name hscheme (c := ' ') (by decide)
    ([',', ' '].intercalate (ps.map Param.text))
  have hn : ps.length ≤ (render scheme ps).length := by
    rw [render, List.length_append, List.length_cons]
    have := length_le ps
    omega
  rw [render] at hn ⊢
  simp only [read, hdrop, htake, readParams_text hne h hn, Option.map_some]

end AuthParams
