import Mathlib.Algebra.Ring.Nat
import Mathlib.Data.Nat.Log
import Mathlib.Data.Nat.Notation

/-! Numbers written in base `b`, to their own width or to a fixed one, and two of them in a row. -/
namespace Numeral

variable {b j k m n x y u v : ℕ}

/-- The last `k` digits of `n`, leading zeros included. -/
def fixed (b : ℕ) : ℕ → ℕ → List Char
  | 0, _ => []
  | k + 1, n => fixed b k (n / b) ++ [Nat.digitChar (n % b)]

/-- How many digits `n` takes. -/
def width (b n : ℕ) : ℕ := Nat.log b n + 1

@[simp] theorem length_fixed (b k n : ℕ) : (fixed b k n).length = k := by
  induction k generalizing n with
  | zero => rfl
  | succ k ih => simp [fixed, ih]

theorem fixed_append (b j k n : ℕ) :
    fixed b (j + k) n = fixed b j (n / b ^ k) ++ fixed b k n := by
  induction k generalizing n with
  | zero => simp [fixed]
  | succ k ih =>
    change fixed b (j + k) (n / b) ++ _ = _ ++ (fixed b k (n / b) ++ _)
    rw [ih, Nat.div_div_eq_div_mul, ← Nat.pow_succ', List.append_assoc]

theorem fixed_mod (b k n : ℕ) : fixed b k (n % b ^ k) = fixed b k n := by
  induction k generalizing n with
  | zero => rfl
  | succ k ih =>
    simp only [fixed]
    rw [Nat.pow_succ', Nat.mod_mul_right_div_self, ih, Nat.mod_mul_right_mod]

theorem digitChar_inj (hm : m < 16) (hn : n < 16) (h : Nat.digitChar m = Nat.digitChar n) :
    m = n := by
  have hall : ∀ m < 16, ∀ n < 16, Nat.digitChar m = Nat.digitChar n → m = n := by decide
  exact hall m hm n hn h

section Base

variable (hb : 1 < b)
include hb

theorem lt_pow_width (n : ℕ) : n < b ^ width b n := Nat.lt_pow_succ_log_self hb n

/-- More digits go behind a number that is not zero. -/
theorem toDigits_append_fixed (hm : 0 < m) (hn : n < b ^ k) :
    Nat.toDigits b m ++ fixed b k n = Nat.toDigits b (m * b ^ k + n) := by
  induction k generalizing n with
  | zero =>
    have hzero : n = 0 := by simpa using hn
    simp [fixed, hzero]
  | succ k ih =>
    have hpow : m * b ^ (k + 1) + n = b * (m * b ^ k) + n := by
      rw [Nat.pow_succ', Nat.mul_left_comm]
    have hdiv : (m * b ^ (k + 1) + n) / b = m * b ^ k + n / b := by
      rw [hpow, Nat.mul_add_div (by omega)]
    have hmod : (m * b ^ (k + 1) + n) % b = n % b := by
      rw [hpow, Nat.mul_add_mod]
    have hle : b ≤ m * b ^ (k + 1) + n := by
      have hpos : 0 < m * b ^ k := Nat.mul_pos hm (Nat.pow_pos (by omega))
      have := Nat.le_mul_of_pos_right b hpos
      omega
    have hlt : n / b < b ^ k := by
      rw [Nat.div_lt_iff_lt_mul (by omega), ← Nat.pow_succ]
      exact hn
    rw [Nat.toDigits_of_base_le hb hle, hdiv, hmod, ← ih hlt, fixed, List.append_assoc]

/-- What stands first in a number that is not zero. -/
theorem leading_digit (hn : n ≠ 0) : 0 < n / b ^ Nat.log b n ∧ n / b ^ Nat.log b n < b := by
  have hpow : 0 < b ^ Nat.log b n := Nat.pow_pos (by omega)
  refine ⟨Nat.div_pos (Nat.pow_log_le_self b hn) hpow, ?_⟩
  rw [Nat.div_lt_iff_lt_mul hpow, ← Nat.pow_succ']
  exact Nat.lt_pow_succ_log_self hb n

/-- A number is written to its own width. -/
theorem toDigits_eq_fixed (n : ℕ) : Nat.toDigits b n = fixed b (width b n) n := by
  by_cases hn : n = 0
  · subst hn
    simp [width, fixed]
  · have hpow : 0 < b ^ Nat.log b n := Nat.pow_pos (by omega)
    obtain ⟨hpos, hlead⟩ := leading_digit hb hn
    have hdigit : Nat.toDigits b (n / b ^ Nat.log b n) = fixed b 1 (n / b ^ Nat.log b n) := by
      rw [Nat.toDigits_of_lt_base hlead]
      simp [fixed, Nat.mod_eq_of_lt hlead]
    calc Nat.toDigits b n
        = Nat.toDigits b (n / b ^ Nat.log b n * b ^ Nat.log b n + n % b ^ Nat.log b n) := by
          rw [Nat.div_add_mod']
      _ = fixed b 1 (n / b ^ Nat.log b n) ++ fixed b (Nat.log b n) n := by
          rw [← toDigits_append_fixed hb hpos (Nat.mod_lt _ hpow), hdigit, fixed_mod]
      _ = fixed b (width b n) n := by rw [← fixed_append, width, Nat.add_comm]

@[simp] theorem length_toDigits (n : ℕ) : (Nat.toDigits b n).length = width b n := by
  rw [toDigits_eq_fixed hb, length_fixed]

/-- A number of several digits does not begin with a zero. -/
theorem zero_cons_ne_toDigits {l : List Char} (hl : l ≠ []) : '0' :: l ≠ Nat.toDigits b n := by
  intro h
  have hwidth : width b n = 1 + l.length := by
    rw [← length_toDigits hb, ← h, List.length_cons, Nat.add_comm]
  have hlog : Nat.log b n = l.length := by
    rw [width] at hwidth
    omega
  have hpos := List.length_pos_iff.mpr hl
  have hn : n ≠ 0 := by
    rintro rfl
    rw [Nat.log_zero_right] at hlog
    omega
  obtain ⟨hlead, hlt⟩ := leading_digit hb hn
  rw [hlog] at hlead hlt
  rw [toDigits_eq_fixed hb, hwidth, fixed_append] at h
  have hzero : ['0'] = fixed b 1 (n / b ^ l.length) :=
    List.append_inj_left h (by simp)
  have hmod : n / b ^ l.length % b = 0 := by simpa [fixed] using hzero
  rw [Nat.mod_eq_of_lt hlt] at hmod
  omega

variable (hle : b ≤ 16)
include hle

/-- Digits in the same number of places say the same number. -/
theorem fixed_inj (h : fixed b k m = fixed b k n) : m % b ^ k = n % b ^ k := by
  induction k generalizing m n with
  | zero => simp [Nat.mod_one]
  | succ k ih =>
    obtain ⟨hhead, hlast⟩ := List.append_inj' h rfl
    have hmod : m % b = n % b := by
      have hm := Nat.mod_lt m (by omega : 0 < b)
      have hn := Nat.mod_lt n (by omega : 0 < b)
      exact digitChar_inj (by omega) (by omega) (List.singleton_inj.mp hlast)
    rw [Nat.pow_succ', Nat.mod_mul, Nat.mod_mul, ih hhead, hmod]

theorem toDigits_inj (h : Nat.toDigits b m = Nat.toDigits b n) : m = n := by
  have hwidth : width b m = width b n := by
    rw [← length_toDigits hb, h, length_toDigits hb]
  rw [toDigits_eq_fixed hb, toDigits_eq_fixed hb n, hwidth] at h
  have hmod := fixed_inj hb hle h
  rwa [← hwidth, Nat.mod_eq_of_lt (lt_pow_width hb m), hwidth,
    Nat.mod_eq_of_lt (lt_pow_width hb n)] at hmod

end Base

/-- `x` and `y` are `m` and `n` after some digits have gone from the front of `n` to the end of `m`.
Their numbers do not begin with a zero: `m` is not one, and what is left of `n` has the width of
`y`. -/
def Shifted (b m n x y : ℕ) : Prop :=
  m ≠ 0 ∧ ∃ j > 0, width b n = j + width b y ∧ x = m * b ^ j + n / b ^ width b y ∧
    y = n % b ^ width b y

section Shifted

variable (hb : 1 < b) (hle : b ≤ 16)
include hb

/-- Digits that are moved are written where they come to. -/
theorem Shifted.split (h : Shifted b m n x y) : ∃ l, l ≠ [] ∧
    Nat.toDigits b x = Nat.toDigits b m ++ l ∧ Nat.toDigits b n = l ++ Nat.toDigits b y := by
  obtain ⟨hm, j, hj, hwidth, hx, hy⟩ := h
  refine ⟨fixed b j (n / b ^ width b y), ?_, ?_, ?_⟩
  · rw [← List.length_pos_iff, length_fixed]
    exact hj
  · have hlt : n / b ^ width b y < b ^ j := by
      rw [Nat.div_lt_iff_lt_mul (Nat.pow_pos (by omega)), ← Nat.pow_add, ← hwidth]
      exact lt_pow_width hb n
    rw [toDigits_append_fixed hb (Nat.pos_of_ne_zero hm) hlt, ← hx]
  · have hlast : Nat.toDigits b y = fixed b (width b y) n := by
      rw [toDigits_eq_fixed hb, ← fixed_mod b _ n, ← hy]
    rw [hlast, ← fixed_append, ← hwidth, toDigits_eq_fixed hb]

/-- They are others than before. -/
theorem Shifted.ne (h : Shifted b m n x y) : m ≠ x := by
  obtain ⟨hm, j, hj, -, hx, -⟩ := h
  have hpow : 1 < b ^ j := Nat.one_lt_pow (by omega) hb
  have hlt : m < m * b ^ j := (Nat.lt_mul_iff_one_lt_right (Nat.pos_of_ne_zero hm)).mpr hpow
  have hle : m * b ^ j ≤ x := hx ▸ Nat.le_add_right _ _
  omega

include hle

/-- Where the same digits fall into two numbers in two ways, some have been moved. -/
theorem shifted_of_split {l : List Char} (hl : l ≠ [])
    (hx : Nat.toDigits b x = Nat.toDigits b m ++ l)
    (hn : Nat.toDigits b n = l ++ Nat.toDigits b y) : Shifted b m n x y := by
  have hm : m ≠ 0 := by
    rintro rfl
    rw [Nat.toDigits_zero] at hx
    exact zero_cons_ne_toDigits hb hl hx.symm
  have hwidth : width b n = l.length + width b y := by
    rw [← length_toDigits hb, hn, List.length_append, length_toDigits hb]
  rw [toDigits_eq_fixed hb n, hwidth, fixed_append, toDigits_eq_fixed hb y] at hn
  obtain ⟨hmoved, hleft⟩ := List.append_inj hn (length_fixed ..)
  refine ⟨hm, l.length, List.length_pos_iff.mpr hl, hwidth, ?_, ?_⟩
  · have hlt : n / b ^ width b y < b ^ l.length := by
      rw [Nat.div_lt_iff_lt_mul (Nat.pow_pos (by omega)), ← Nat.pow_add, ← hwidth]
      exact lt_pow_width hb n
    rw [← hmoved, toDigits_append_fixed hb (Nat.pos_of_ne_zero hm) hlt] at hx
    exact toDigits_inj hb hle hx
  · have hmod := fixed_inj hb hle hleft
    rw [hmod, Nat.mod_eq_of_lt (lt_pow_width hb y)]

/-- Two pairs of numbers are written the same if they are the same, or one is the other shifted. -/
theorem toDigits_append_eq_iff :
    Nat.toDigits b m ++ Nat.toDigits b n = Nat.toDigits b x ++ Nat.toDigits b y ↔
      (m = x ∧ n = y) ∨ Shifted b m n x y ∨ Shifted b x y m n := by
  constructor
  · intro h
    rcases List.append_eq_append_iff.mp h with ⟨l, hx, hn⟩ | ⟨l, hm, hy⟩
    · by_cases hl : l = []
      · subst hl
        rw [List.append_nil] at hx
        rw [List.nil_append] at hn
        exact .inl ⟨(toDigits_inj hb hle hx).symm, toDigits_inj hb hle hn⟩
      · exact .inr (.inl (shifted_of_split hb hle hl hx hn))
    · by_cases hl : l = []
      · subst hl
        rw [List.append_nil] at hm
        rw [List.nil_append] at hy
        exact .inl ⟨toDigits_inj hb hle hm, (toDigits_inj hb hle hy).symm⟩
      · exact .inr (.inr (shifted_of_split hb hle hl hm hy))
  · rintro (⟨rfl, rfl⟩ | h | h)
    · rfl
    · obtain ⟨l, -, hx, hn⟩ := h.split hb
      rw [hx, hn, List.append_assoc]
    · obtain ⟨l, -, hm, hy⟩ := h.split hb
      rw [hm, hy, List.append_assoc]

end Shifted

end Numeral
