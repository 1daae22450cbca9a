/-
The machine's integers: conversions to them, and sums that wrap around.
-/
import Mathlib

namespace Lib

/-- `int64(x)` of a number in range: towards zero. -/
def truncToInt (x : ℚ) : Int := if 0 ≤ x then ⌊x⌋ else ⌈x⌉

/-- `int64(x)`: a number out of range becomes the smallest integer. -/
def toInt64 (x : ℚ) : Int :=
  let n := truncToInt x
  if -2 ^ 63 ≤ n ∧ n < 2 ^ 63 then n else -2 ^ 63

/-- The 64-bit integer that a sum leaves in its register. -/
def wrap64 (n : Int) : Int := n.bmod (2 ^ 64)

@[simp] theorem wrap64_add_wrap64 (a b : Int) : wrap64 (a + wrap64 b) = wrap64 (a + b) :=
  Int.add_bmod_bmod

@[simp] theorem wrap64_wrap64_add (a b : Int) : wrap64 (wrap64 a + b) = wrap64 (a + b) :=
  Int.bmod_add_bmod

theorem wrap64_eq_self {n : Int} (hlo : -2 ^ 63 ≤ n) (hhi : n < 2 ^ 63) : wrap64 n = n :=
  Int.bmod_eq_of_le (by omega) (by omega)

/-- Past the largest integer the sum is negative. -/
theorem wrap64_eq_sub {n : Int} (hlo : 2 ^ 63 ≤ n) (hhi : n < 2 ^ 64) : wrap64 n = n - 2 ^ 64 := by
  have hm : n % (2 ^ 64 : Nat) = n := Int.emod_eq_of_lt (by omega) (by exact_mod_cast hhi)
  unfold wrap64
  rw [Int.bmod_def, hm, if_neg (by omega)]
  norm_num

end Lib
