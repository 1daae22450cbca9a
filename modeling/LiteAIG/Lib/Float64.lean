/-
Rounding to a float64: 53 significant bits, the nearest value, ties to the even one.

The exponent has no bounds here: a number too large for a float64 stays larger than
every integer of the machine, and nothing below asks for numbers close to zero.
-/
import Mathlib

namespace Lib

/-- The nearest integer; of two that are equally near, the even one. -/
def roundEven (x : ℚ) : Int :=
  let n := ⌊x⌋
  if x - n < 1 / 2 ∨ x - n = 1 / 2 ∧ n % 2 = 0 then n else n + 1

/-- The distance of two neighbours among the float64s of the size of `x`. -/
def ulp (x : ℚ) : ℚ := 2 ^ (Int.log 2 |x| - 52)

def toFloat64 (x : ℚ) : ℚ := roundEven (x / ulp x) * ulp x

theorem roundEven_close (x : ℚ) : |roundEven x - x| ≤ 1 / 2 := by
  have hle := Int.floor_le x
  have hlt := Int.lt_floor_add_one x
  unfold roundEven
  simp only
  split_ifs with hround
  · rw [abs_le]
    constructor
    · rcases hround with h | h <;> linarith [h]
    · linarith
  · have hhalf : 1 / 2 ≤ x - ⌊x⌋ := not_lt.mp fun h => hround (.inl h)
    push_cast
    rw [abs_le]
    constructor <;> linarith

/-- An integer is its own rounding, and what is beyond it is rounded beyond it. -/
theorem le_roundEven {n : Int} {x : ℚ} (h : n ≤ x) : n ≤ roundEven x := by
  have hle : n ≤ ⌊x⌋ := Int.le_floor.mpr h
  unfold roundEven
  simp only
  split_ifs <;> omega

theorem roundEven_le {n : Int} {x : ℚ} (h : x ≤ n) : roundEven x ≤ n := by
  have hclose := abs_le.mp (roundEven_close x)
  have hlt : (roundEven x : ℚ) < n + 1 := by linarith
  exact Int.lt_add_one_iff.mp (by exact_mod_cast hlt)

theorem ulp_pos (x : ℚ) : 0 < ulp x := zpow_pos two_pos _

theorem two_pow_mul_ulp (x : ℚ) : ((2 ^ 52 : Int) : ℚ) * ulp x = 2 ^ Int.log 2 |x| := by
  rw [ulp, zpow_sub₀ two_ne_zero]
  norm_num
  ring

section

variable {x : ℚ}

theorem toFloat64_close (x : ℚ) : |toFloat64 x - x| ≤ ulp x / 2 := by
  have hx : toFloat64 x - x = (roundEven (x / ulp x) - x / ulp x) * ulp x := by
    rw [sub_mul, div_mul_cancel₀ _ (ulp_pos x).ne']
    rfl
  rw [hx, abs_mul, abs_of_pos (ulp_pos x)]
  linarith [mul_le_mul_of_nonneg_right (roundEven_close (x / ulp x)) (ulp_pos x).le]

/-- The power of two below a number is a float64, so the rounding is not below it. -/
theorem pow_log_le_toFloat64 (h : 0 < x) : 2 ^ Int.log 2 x ≤ toFloat64 x := by
  have hp := Int.zpow_log_le_self (b := 2) one_lt_two h
  have hlog := two_pow_mul_ulp x
  rw [abs_of_pos h] at hlog
  have hle : ((2 ^ 52 : Int) : ℚ) ≤ x / ulp x := by
    rw [le_div_iff₀ (ulp_pos x), hlog]
    exact_mod_cast hp
  rw [← hlog]
  exact mul_le_mul_of_nonneg_right (by exact_mod_cast le_roundEven hle) (ulp_pos x).le

theorem toFloat64_nonpos (h : x ≤ 0) : toFloat64 x ≤ 0 := by
  have hle : x / ulp x ≤ ((0 : Int) : ℚ) := by
    push_cast
    exact div_nonpos_of_nonpos_of_nonneg h (ulp_pos x).le
  exact mul_nonpos_of_nonpos_of_nonneg (by exact_mod_cast roundEven_le hle) (ulp_pos x).le

/-- The least float64 above one. -/
theorem float64_above_one (hf : toFloat64 x = x) (h : 1 < x) : 1 + 1 / 2 ^ 52 ≤ x := by
  have hx : 0 < x := one_pos.trans h
  have hlog : 0 ≤ Int.log 2 x := by
    rw [← Int.zpow_le_iff_le_log one_lt_two hx]
    exact_mod_cast h.le
  rcases hlog.lt_or_eq with hpos | hzero
  · have hp := Int.zpow_log_le_self (b := 2) one_lt_two hx
    have htwo : (2 : ℚ) ^ (1 : Int) ≤ 2 ^ Int.log 2 x := zpow_le_zpow_right₀ one_le_two hpos
    push_cast at hp
    norm_num at htwo ⊢
    linarith
  · have hu : ulp x = 1 / 2 ^ 52 := by
      rw [ulp, abs_of_pos hx, ← hzero]
      norm_num
    rw [toFloat64, hu] at hf
    have hlt : ((2 ^ 52 : Int) : ℚ) < roundEven (x / (1 / 2 ^ 52)) := by
      push_cast
      rw [← hf] at h
      linarith
    have hle : (2 ^ 52 : Int) + 1 ≤ roundEven (x / (1 / 2 ^ 52)) := by exact_mod_cast hlt
    have hq : (2 : ℚ) ^ 52 + 1 ≤ roundEven (x / (1 / 2 ^ 52)) := by exact_mod_cast hle
    rw [← hf]
    linarith

/-- A product with a float64 above one is not below the operand, though both are rounded. -/
theorem le_toFloat64_mul {factor : ℚ} (hx : 0 < x) (hf : toFloat64 factor = factor)
    (hone : 1 < factor) : x ≤ toFloat64 (toFloat64 x * factor) := by
  have hlog := pow_log_le_toFloat64 hx
  have hu := two_pow_mul_ulp x
  rw [abs_of_pos hx] at hu
  have hclose := (abs_le.mp (toFloat64_close x)).1
  have hy : 0 < toFloat64 x := (zpow_pos two_pos _).trans_le hlog
  have hp : toFloat64 x + ulp x ≤ toFloat64 x * factor := by
    have hm := mul_le_mul_of_nonneg_left (float64_above_one hf hone) hy.le
    push_cast at hu
    linarith
  set p := toFloat64 x * factor
  have hpos : 0 < p := hy.trans_le (by linarith [ulp_pos x])
  have hxp : x ≤ p := by linarith [ulp_pos x]
  rcases (Int.log_mono_right hx hxp : Int.log 2 x ≤ Int.log 2 p).lt_or_eq with hlt | heq
  · -- the next power of two lies between the two
    have hnext := Int.lt_zpow_succ_log_self (b := 2) one_lt_two x
    have hle : (2 : ℚ) ^ (Int.log 2 x + 1) ≤ 2 ^ Int.log 2 p := zpow_le_zpow_right₀ one_le_two hlt
    push_cast at hnext
    exact hnext.le.trans (hle.trans (pow_log_le_toFloat64 hpos))
  · have hup : ulp p = ulp x := by rw [ulp, ulp, abs_of_pos hpos, abs_of_pos hx, heq]
    have hc := (abs_le.mp (toFloat64_close p)).1
    rw [hup] at hc
    linarith

end

end Lib
