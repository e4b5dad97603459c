import Mathlib.Data.List.Basic

/-! Byte strings and their lines. -/

/-- A `std::string`, a byte for each character. -/
abbrev Bytes := List Char

namespace Bytes

/-- The pieces between the line feeds, the last one included. -/
def lines (s : Bytes) : List Bytes := s.splitOn '\n'

/-- Without one carriage return at the end. -/
def stripCr (line : Bytes) : Bytes :=
  if line.getLast? = some '\r' then line.dropLast else line

variable {s t line : Bytes}

theorem lines_of_not_mem (h : '\n' ∉ s) : lines s = [s] := List.splitOn_eq_singleton h

theorem lines_append_lf (h : '\n' ∉ line) : lines (line ++ '\n' :: s) = line :: lines s :=
  List.splitOn_append_cons_self_of_not_mem h s

theorem lines_ne_nil (s : Bytes) : lines s ≠ [] := List.splitOn_ne_nil '\n' s

/-- A prefix without a line feed goes into the first line. -/
theorem lines_append_of_not_mem (h : '\n' ∉ t) :
    lines (t ++ s) = (lines s).modifyHead (t ++ ·) := by
  induction t with
  | nil =>
    cases hs : lines s with
    | nil => exact absurd hs (lines_ne_nil s)
    | cons head tail => simp [hs]
  | cons c cs ih =>
    have hc : (c == '\n') = false := by
      rw [beq_eq_false_iff_ne]
      intro he
      exact h (by simp [he])
    rw [List.cons_append, lines, List.splitOn_cons_eq_if_modifyHead, hc, if_neg (by simp)]
    change (lines (cs ++ s)).modifyHead (c :: ·) = _
    rw [ih fun hcs => h (by simp [hcs]), List.modifyHead_modifyHead]
    rfl

theorem intercalate_cons (sep line : Bytes) (ls : List Bytes) :
    sep.intercalate (line :: ls) = line ++ ls.flatMap (sep ++ ·) := by
  induction ls generalizing line with
  | nil => simp
  | cons next ls ih => simp [List.intercalate_cons_cons, ih]

theorem stripCr_of_not_mem (h : '\r' ∉ line) : stripCr line = line := by
  rw [stripCr, if_neg]
  intro hlast
  exact h (List.mem_of_getLast? hlast)

end Bytes
