import Mcp.Library.Numeral

/-! The ids that mint_task_id and make_session_id print, and the random bits they keep. -/
namespace Mcp

open Numeral

variable {a b c d : UInt64}

/-- `os << std::hex << n` on a fresh stream: lower case, and no width. -/
def hex (n : UInt64) : String := String.ofList (Nat.toDigits 16 n.toNat)

/-- mint_task_id, from its two draws. -/
def mintTaskId (a b : UInt64) : String := hex a ++ hex b

/-- make_session_id, from its two draws. -/
def makeSessionId (a b : UInt64) : String := hex a ++ hex b

/-- The draws `c` and `d` are `a` and `b` after the first digits of `b` have gone to the end of
`a`. -/
def Regrouped (a b c d : UInt64) : Prop := Shifted 16 a.toNat b.toNat c.toNat d.toNat

theorem hex_append_eq_iff : hex a ++ hex b = hex c ++ hex d ↔
    (a = c ∧ b = d) ∨ Regrouped a b c d ∨ Regrouped c d a b := by
  rw [← String.toList_inj]
  simp only [hex, String.toList_append, String.toList_ofList]
  rw [toDigits_append_eq_iff (by omega) (by omega), UInt64.toNat_inj, UInt64.toNat_inj]
  rfl

theorem Regrouped.ne (h : Regrouped a b c d) : a ≠ c := by
  rintro rfl
  exact Shifted.ne (by omega) h rfl

/-- Two pairs of draws are told apart by their ids exactly when neither is the other with digits
moved from its second draw to its first. -/
theorem ids_distinct_iff (a b c d : UInt64) :
    ((mintTaskId a b = mintTaskId c d → a = c ∧ b = d) ↔
      ¬Regrouped a b c d ∧ ¬Regrouped c d a b) ∧
    ((makeSessionId a b = makeSessionId c d → a = c ∧ b = d) ↔
      ¬Regrouped a b c d ∧ ¬Regrouped c d a b) := by
  have hiff : (hex a ++ hex b = hex c ++ hex d → a = c ∧ b = d) ↔
      ¬Regrouped a b c d ∧ ¬Regrouped c d a b := by
    rw [hex_append_eq_iff]
    constructor
    · intro h
      exact ⟨fun hr => hr.ne (h (.inr (.inl hr))).1, fun hr => hr.ne (h (.inr (.inr hr))).1.symm⟩
    · rintro ⟨h₁, h₂⟩ (h | h | h)
      · exact h
      · exact absurd h h₁
      · exact absurd h h₂
  exact ⟨hiff, hiff⟩

/-- 1 and 23 are written as 12 and 3 are. -/
theorem ids_collide : mintTaskId 0x1 0x23 = mintTaskId 0x12 0x3 ∧
    makeSessionId 0x1 0x23 = makeSessionId 0x12 0x3 ∧
    ¬((0x1 : UInt64) = 0x12 ∧ (0x23 : UInt64) = 0x3) := by
  decide

end Mcp
