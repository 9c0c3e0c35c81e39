import Mathlib.Data.Int.Log
import Mathlib.Data.Rat.Floor
import Mathlib.Tactic.Linarith
import Mathlib.Tactic.Positivity
import Mathlib.Tactic.FieldSimp

/-!
# Double precision

The numbers of binary64 by their values: significands of 53 binary digits, exponents from `-1074`, and
values below `2 ^ 1024`. What an operation gives exactly is rounded to the nearest such number, of two
as near to the one with the even significand, and what is too large becomes infinite. There is one
zero.

* `nearest_eq_self`: what is representable is not rounded.
* `representable_nearest`: what is rounded is representable.
* `mul_two`: doubling is exact until it overflows.
-/

namespace AgentHostProtocol.Library

/-- The integer nearest to a rational; of two as near, the even one. -/
def roundEven (q : ℚ) : ℤ :=
  if q - ⌊q⌋ < 1 / 2 ∨ q - ⌊q⌋ = 1 / 2 ∧ ⌊q⌋ % 2 = 0 then ⌊q⌋ else ⌊q⌋ + 1

@[simp] theorem roundEven_intCast (n : ℤ) : roundEven n = n := by
  simp [roundEven]

theorem roundEven_mem (q : ℚ) : ⌊q⌋ ≤ roundEven q ∧ roundEven q ≤ ⌊q⌋ + 1 := by
  rw [roundEven]
  split_ifs <;> omega

/-- A number in double precision. -/
inductive Binary64
  | finite (value : ℚ)
  | infinity (negative : Bool)
  | nan
deriving DecidableEq

namespace Binary64

/-- The worth of the last digit of the significand. -/
def quantum (q : ℚ) : ℚ := 2 ^ max (Int.log 2 |q| - 52) (-1074)

/-- A rational rounded to the digits of a significand. -/
def nearest (q : ℚ) : ℚ := roundEven (q / quantum q) * quantum q

/-- The number that stands for a rational. -/
def ofRat (q : ℚ) : Binary64 :=
  if |nearest q| < 2 ^ 1024 then .finite (nearest q) else .infinity (decide (q < 0))

def sub : Binary64 → Binary64 → Binary64
  | .finite a, .finite b => ofRat (a - b)
  | .finite _, .infinity negative => .infinity !negative
  | .infinity negative, .finite _ => .infinity negative
  | .infinity negative, .infinity negative' => if negative = negative' then .nan else .infinity negative
  | _, _ => .nan

def mul : Binary64 → Binary64 → Binary64
  | .finite a, .finite b => ofRat (a * b)
  | .finite a, .infinity negative | .infinity negative, .finite a =>
    if a = 0 then .nan else .infinity (negative ^^ decide (a < 0))
  | .infinity negative, .infinity negative' => .infinity (negative ^^ negative')
  | _, _ => .nan

def beq : Binary64 → Binary64 → Bool
  | .finite a, .finite b => a = b
  | .infinity negative, .infinity negative' => negative = negative'
  | _, _ => false

def lt : Binary64 → Binary64 → Bool
  | .finite a, .finite b => a < b
  | .finite _, .infinity negative => !negative
  | .infinity negative, .finite _ => negative
  | .infinity negative, .infinity negative' => negative && !negative'
  | _, _ => false

def le (x y : Binary64) : Bool := lt x y || beq x y

/-! ### Representable numbers -/

/-- An integer of at most 53 binary digits, scaled by a power of two. -/
def Representable (q : ℚ) : Prop := ∃ m e : ℤ, |m| < 2 ^ 53 ∧ -1074 ≤ e ∧ q = m * 2 ^ e

theorem representable_intCast {n : ℤ} (h : |n| < 2 ^ 53) : Representable n :=
  ⟨n, 0, h, by omega, by simp⟩

theorem Representable.mul_two {q : ℚ} (h : Representable q) : Representable (q * 2) := by
  obtain ⟨m, e, hm, he, rfl⟩ := h
  refine ⟨m, e + 1, hm, by omega, ?_⟩
  rw [zpow_add_one₀ two_ne_zero, mul_assoc]

theorem quantum_pos (q : ℚ) : 0 < quantum q := zpow_pos two_pos _

theorem abs_lt_quantum (q : ℚ) : |q| < 2 ^ 53 * quantum q := by
  have hlt := Int.lt_zpow_succ_log_self (b := 2) (by decide) |q|
  refine hlt.trans_le ?_
  rw [quantum, ← zpow_natCast, Nat.cast_ofNat, ← zpow_add₀ two_ne_zero]
  refine zpow_le_zpow_right₀ one_le_two ?_
  have hmax := le_max_left (Int.log 2 |q| - 52) (-1074)
  push_cast
  omega

/-- What is representable is not rounded. -/
theorem nearest_eq_self {q : ℚ} (h : Representable q) : nearest q = q := by
  obtain ⟨m, e, hm, he, rfl⟩ := h
  by_cases hzero : m = 0
  · subst hzero
    have hround := roundEven_intCast 0
    simp only [Int.cast_zero] at hround
    simp [nearest, hround]
  have hquantum : max (Int.log 2 |(m : ℚ) * 2 ^ e| - 52) (-1074) ≤ e := by
    refine max_le ?_ he
    have hscale : (0 : ℚ) < 2 ^ e := zpow_pos two_pos e
    have hpos : 0 < |(m : ℚ) * 2 ^ e| :=
      abs_pos.mpr (mul_ne_zero (Int.cast_ne_zero.mpr hzero) hscale.ne')
    have hlt : |(m : ℚ) * 2 ^ e| < (2 : ℕ) ^ (53 + e) := by
      rw [abs_mul, abs_of_pos hscale, Nat.cast_ofNat, zpow_add₀ two_ne_zero]
      refine mul_lt_mul_of_pos_right ?_ hscale
      exact_mod_cast hm
    have hlog := (Int.lt_zpow_iff_log_lt (by decide) hpos).mp hlt
    omega
  obtain ⟨k, hk⟩ := Int.eq_ofNat_of_zero_le (sub_nonneg.mpr hquantum)
  have hscale : (m : ℚ) * 2 ^ e / quantum (m * 2 ^ e) = ((m * 2 ^ k : ℤ) : ℚ) := by
    rw [quantum, mul_div_assoc, ← zpow_sub₀ two_ne_zero, hk]
    push_cast
    rw [zpow_natCast]
  rw [nearest, hscale, roundEven_intCast, ← hscale, div_mul_cancel₀ _ (quantum_pos _).ne']

/-- What is rounded is representable. -/
theorem representable_nearest (q : ℚ) : Representable (nearest q) := by
  have hquantum := quantum_pos q
  have habs : |q / quantum q| < 2 ^ 53 := by
    rw [abs_div, abs_of_pos hquantum, div_lt_iff₀ hquantum]
    exact abs_lt_quantum q
  obtain ⟨hlo, hhi⟩ := abs_lt.mp habs
  obtain ⟨hfloor, hceil⟩ := roundEven_mem (q / quantum q)
  have hlower : -2 ^ 53 ≤ ⌊q / quantum q⌋ := Int.le_floor.mpr (by push_cast; exact hlo.le)
  have hupper : ⌊q / quantum q⌋ < 2 ^ 53 := Int.floor_lt.mpr (by push_cast; exact hhi)
  have hexponent := le_max_right (Int.log 2 |q| - 52) (-1074)
  by_cases hfits : |roundEven (q / quantum q)| < 2 ^ 53
  · exact ⟨_, _, hfits, hexponent, rfl⟩
  · -- the significand was rounded up to one digit more, the last of which is zero
    obtain ⟨m, hm, hlt⟩ : ∃ m : ℤ, roundEven (q / quantum q) = m * 2 ∧ |m| < 2 ^ 53 := by
      rw [abs_lt, not_and_or] at hfits
      obtain hneg | hpos := hfits
      · exact ⟨-2 ^ 52, by omega, by decide⟩
      · exact ⟨2 ^ 52, by omega, by decide⟩
    refine ⟨m, _, hlt, le_add_of_le_of_nonneg hexponent zero_le_one, ?_⟩
    rw [nearest, hm, zpow_add_one₀ two_ne_zero, quantum]
    push_cast
    ring

theorem nearest_nonneg {q : ℚ} (h : 0 ≤ q) : 0 ≤ nearest q := by
  have hfloor : 0 ≤ ⌊q / quantum q⌋ := Int.floor_nonneg.mpr (div_nonneg h (quantum_pos q).le)
  have hround : 0 ≤ roundEven (q / quantum q) := hfloor.trans (roundEven_mem _).1
  exact mul_nonneg (Int.cast_nonneg hround) (quantum_pos q).le

/-- Integers are rounded to integers. -/
theorem exists_nearest_intCast (n : ℤ) : ∃ m : ℤ, nearest n = m := by
  by_cases hfits : |n| < 2 ^ 53
  · exact ⟨n, nearest_eq_self (representable_intCast hfits)⟩
  · have hlarge : (2 : ℕ) ^ (53 : ℤ) ≤ |(n : ℚ)| := by
      rw [not_lt] at hfits
      exact_mod_cast hfits
    have hlog : 53 ≤ Int.log 2 |(n : ℚ)| :=
      (Int.zpow_le_iff_le_log (by decide) (hlarge.trans_lt' (by positivity))).mp hlarge
    obtain ⟨k, hk⟩ : ∃ k : ℕ, max (Int.log 2 |(n : ℚ)| - 52) (-1074) = k :=
      Int.eq_ofNat_of_zero_le (le_max_of_le_left (by omega))
    refine ⟨roundEven (n / quantum n) * 2 ^ k, ?_⟩
    rw [nearest, quantum, hk]
    push_cast
    rw [zpow_natCast]

theorem ofRat_intCast {n : ℤ} (h : |n| < 2 ^ 53) : ofRat n = .finite n := by
  have hvalue := nearest_eq_self (representable_intCast h)
  have hsmall : |(n : ℚ)| < 2 ^ 1024 := by
    have hle : (2 : ℤ) ^ 53 ≤ 2 ^ 1024 := pow_le_pow_right₀ (by decide) (by decide)
    exact_mod_cast h.trans_le hle
  rw [ofRat, hvalue, if_pos hsmall]

theorem ofRat_natCast {n : ℕ} (h : n < 2 ^ 53) : ofRat n = .finite n := by
  have hint := @ofRat_intCast n (by rw [Nat.abs_cast]; exact_mod_cast h)
  rwa [Int.cast_natCast] at hint

/-- The difference of integers is exact if it fits. -/
theorem sub_intCast {a b : ℤ} (h : |a - b| < 2 ^ 53) : sub (.finite a) (.finite b) = .finite (a - b) := by
  have hdiff := ofRat_intCast h
  push_cast at hdiff
  exact hdiff

/-- Doubling is exact until it overflows. -/
theorem mul_two {q : ℚ} (h : Representable q) (hq : 0 ≤ q) :
    mul (.finite q) (.finite 2) = if q * 2 < 2 ^ 1024 then .finite (q * 2) else .infinity false := by
  have hnonneg : 0 ≤ q * 2 := by positivity
  rw [mul, ofRat, nearest_eq_self h.mul_two, abs_of_nonneg hnonneg, decide_eq_false (not_lt.mpr hnonneg)]

end Binary64

end AgentHostProtocol.Library
