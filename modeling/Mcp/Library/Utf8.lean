import Mathlib.Data.Nat.Notation

/-! Well-formed UTF-8, as the automaton that reads it. A byte is a character below 256. -/
namespace Utf8

/-- The ranges that the bytes after a first byte must fall in, if it is a first byte. -/
def owed (b : ℕ) : Option (List (ℕ × ℕ)) :=
  if b < 0x80 then some []
  else if 0xC2 ≤ b ∧ b ≤ 0xDF then some [(0x80, 0xBF)]
  else if b = 0xE0 then some [(0xA0, 0xBF), (0x80, 0xBF)]
  else if b = 0xED then some [(0x80, 0x9F), (0x80, 0xBF)]
  else if 0xE1 ≤ b ∧ b ≤ 0xEF then some [(0x80, 0xBF), (0x80, 0xBF)]
  else if b = 0xF0 then some [(0x90, 0xBF), (0x80, 0xBF), (0x80, 0xBF)]
  else if 0xF1 ≤ b ∧ b ≤ 0xF3 then some [(0x80, 0xBF), (0x80, 0xBF), (0x80, 0xBF)]
  else if b = 0xF4 then some [(0x80, 0x8F), (0x80, 0xBF), (0x80, 0xBF)]
  else none

def step : List (ℕ × ℕ) → Char → Option (List (ℕ × ℕ))
  | [], c => owed c.toNat
  | (low, high) :: rest, c => if low ≤ c.toNat ∧ c.toNat ≤ high then some rest else none

def run (rest : List (ℕ × ℕ)) : List Char → Option (List (ℕ × ℕ))
  | [] => some rest
  | c :: cs => (step rest c).bind fun rest => run rest cs

/-- Every byte is accepted, and none is owed at the end. -/
def Valid (cs : List Char) : Prop := run [] cs = some []

instance (cs : List Char) : Decidable (Valid cs) := decEq (run [] cs) (some [])

theorem run_append (rest : List (ℕ × ℕ)) (cs ds : List Char) :
    run rest (cs ++ ds) = (run rest cs).bind fun rest => run rest ds := by
  induction cs generalizing rest with
  | nil => rfl
  | cons c cs ih =>
    cases h : step rest c with
    | none => simp [run, h]
    | some rest' => simp [run, h, ih]

/-- Behind well-formed bytes, what follows is judged on its own. -/
theorem valid_append {cs ds : List Char} (h : Valid cs) : Valid (cs ++ ds) ↔ Valid ds := by
  unfold Valid at h ⊢
  rw [run_append, h]
  rfl

@[simp] theorem valid_nil : Valid [] := rfl

/-- A byte below 128 stands for itself. -/
@[simp] theorem valid_cons_ascii {c : Char} (h : c.toNat < 0x80) (cs : List Char) :
    Valid (c :: cs) ↔ Valid cs := by
  have hone : Valid [c] := by simp [Valid, run, step, owed, h]
  exact valid_append hone

end Utf8
