/-
How long an open circuit stays open.

The cooldown is multiplied once per re-opening and capped only after the last
multiplication, so with enough re-openings the product leaves the range of a duration.
What the conversion then gives is negative, does not become positive by any further
multiplication, and makes `cooldown` fall back to the configured value: the bounds
hold for every count, growth does not.  `grown` is the same product without a limit on
its size; it says which count is the last one before the fall.
-/
import LiteAIG.Execution.Circuit

namespace LiteAIG.Execution

open Lib

/-! ### Multiplying a duration -/

section

variable {factor : ℚ} {cooldown : Int}

theorem scaled_succ (factor : ℚ) (n : Nat) (cooldown : Int) :
    scaled factor (n + 1) cooldown = toInt64 (floatMul (scaled factor n cooldown) factor) := by
  induction n generalizing cooldown with
  | zero => rfl
  | succ n ih => exact ih (toInt64 (floatMul cooldown factor))

/-- The duration after `n` multiplications, of any size. -/
def grown (factor : ℚ) (cooldown : Int) : Nat → Int
  | 0 => cooldown
  | n + 1 => ⌊floatMul (grown factor cooldown n) factor⌋

theorem toInt64_of_fits {product : ℚ} (hn : 0 ≤ product) (hf : ⌊product⌋ < 2 ^ 63) :
    toInt64 product = ⌊product⌋ := by
  have hfl : 0 ≤ ⌊product⌋ := Int.floor_nonneg.mpr hn
  rw [toInt64, truncToInt, if_pos hn, if_pos ⟨by omega, hf⟩]

theorem toInt64_of_overflow {product : ℚ} (ho : 2 ^ 63 ≤ ⌊product⌋) :
    toInt64 product = -2 ^ 63 := by
  have hn : 0 ≤ product := Int.floor_nonneg.mp (by omega)
  rw [toInt64, truncToInt, if_pos hn, if_neg (by omega)]

/-- What is not positive stays so under every further multiplication. -/
theorem toInt64_floatMul_nonpos (hf : 0 ≤ factor) (hc : cooldown ≤ 0) :
    toInt64 (floatMul cooldown factor) ≤ 0 := by
  have hx : floatMul cooldown factor ≤ 0 := toFloat64_nonpos
    (mul_nonpos_of_nonpos_of_nonneg (toFloat64_nonpos (by exact_mod_cast hc)) hf)
  have htrunc : truncToInt (floatMul cooldown factor) ≤ 0 := by
    unfold truncToInt
    split
    · exact_mod_cast (Int.floor_le _).trans hx
    · exact Int.ceil_le.mpr (by exact_mod_cast hx)
  unfold toInt64
  simp only
  split <;> omega

variable (hfloat : toFloat64 factor = factor) (hf : 1 < factor) (hc : 0 < cooldown)

include hfloat hf hc

/-- A duration grows, or stays, with every multiplication. -/
theorem grown_le_succ (n : Nat) :
    cooldown ≤ grown factor cooldown n ∧
      grown factor cooldown n ≤ grown factor cooldown (n + 1) := by
  have hm : ∀ {g : Int}, cooldown ≤ g → g ≤ ⌊floatMul g factor⌋ := by
    intro g hg
    have hpos : (0 : ℚ) < g := by exact_mod_cast hc.trans_le hg
    exact Int.le_floor.mpr (le_toFloat64_mul hpos hfloat hf)
  induction n with
  | zero => exact ⟨le_rfl, hm le_rfl⟩
  | succ n ih =>
    have hle : cooldown ≤ grown factor cooldown (n + 1) := ih.1.trans ih.2
    exact ⟨hle, hm hle⟩

/-- As long as the product is in range it is what the loop computes. -/
theorem scaled_of_fits {n : Nat} (hfi : grown factor cooldown n < 2 ^ 63) :
    scaled factor n cooldown = grown factor cooldown n := by
  induction n with
  | zero => rfl
  | succ n ih =>
    obtain ⟨hle, hg⟩ := grown_le_succ hfloat hf hc n
    have hn : 0 ≤ grown factor cooldown (n + 1) := hc.le.trans (hle.trans hg)
    rw [scaled_succ, ih (by omega)]
    exact toInt64_of_fits (Int.floor_nonneg.mp hn) hfi

/-- Once a multiplication has left the range the duration is lost. -/
theorem scaled_of_overflow (n : Nat) (ho : 2 ^ 63 ≤ grown factor cooldown (n + 1)) :
    scaled factor (n + 1) cooldown ≤ 0 := by
  induction n with
  | zero => exact (toInt64_of_overflow ho).trans_le (by omega)
  | succ n ih =>
    rw [scaled_succ]
    by_cases hfi : grown factor cooldown (n + 1) < 2 ^ 63
    · rw [scaled_of_fits hfloat hf hc hfi, toInt64_of_overflow ho]
      omega
    · exact toInt64_floatMul_nonpos (by linarith) (ih (not_lt.mp hfi))

end

/-! ### The cooldown of an open count -/

/-- The next opening is the first to multiply the duration out of its range. -/
def CircuitConfig.Overflows (cfg : CircuitConfig) (openCount : Int) : Prop :=
  1 < cfg.cooldownFactor ∧ grown cfg.cooldownFactor cfg.cooldown (openCount - 1).toNat < 2 ^ 63 ∧
    2 ^ 63 ≤ grown cfg.cooldownFactor cfg.cooldown openCount.toNat

section

variable {cfg : CircuitConfig} {openCount : Int}

/-- `cooldown` with the cap and the fallback told apart. -/
theorem cooldownFor_eq (hc : 0 < cfg.cooldown) (hm : cfg.cooldown ≤ cfg.maxCooldown)
    (hn : 1 ≤ openCount) :
    cfg.cooldownFor openCount =
      if 1 < cfg.cooldownFactor ∧ 0 < scaled cfg.cooldownFactor
        (openCount - 1).toNat cfg.cooldown then
        min (scaled cfg.cooldownFactor (openCount - 1).toNat cfg.cooldown) cfg.maxCooldown
      else cfg.cooldown := by
  simp only [CircuitConfig.cooldownFor, if_neg (show ¬ openCount ≤ 0 by omega), gt_iff_lt]
  generalize scaled cfg.cooldownFactor (openCount - 1).toNat cfg.cooldown = s
  by_cases hf : 1 < cfg.cooldownFactor
  · simp only [hf, true_and, if_true]
    split_ifs <;> omega
  · simp only [hf, false_and, if_false]
    split_ifs <;> omega

/-- The cooldown is the capped product while that is in range, and the configured one after. -/
theorem cooldownFor_grown (hfloat : toFloat64 cfg.cooldownFactor = cfg.cooldownFactor)
    (hc : 0 < cfg.cooldown) (hf : 1 < cfg.cooldownFactor)
    (hm : cfg.cooldown ≤ cfg.maxCooldown) (hn : 1 ≤ openCount) :
    cfg.cooldownFor openCount =
      if grown cfg.cooldownFactor cfg.cooldown (openCount - 1).toNat < 2 ^ 63 then
        min (grown cfg.cooldownFactor cfg.cooldown (openCount - 1).toNat) cfg.maxCooldown
      else cfg.cooldown := by
  rw [cooldownFor_eq hc hm hn]
  generalize (openCount - 1).toNat = n
  obtain ⟨hle, -⟩ := grown_le_succ hfloat hf hc n
  by_cases hfi : grown cfg.cooldownFactor cfg.cooldown n < 2 ^ 63
  · rw [scaled_of_fits hfloat hf hc hfi, if_pos hfi, if_pos ⟨hf, by omega⟩]
  · rw [if_neg hfi]
    cases n with
    | zero =>
      rw [scaled, if_pos ⟨hf, hc⟩]
      omega
    | succ n =>
      have hlost := scaled_of_overflow hfloat hf hc n (not_lt.mp hfi)
      rw [if_neg fun h => absurd h.2 (not_lt.mpr hlost)]

/-- **Every cooldown lies between the configured one and the cap; the next one is not
below it unless the multiplication in between is the first to leave the range of a
duration and there was room to grow and growth before it.** -/
theorem cooldown_bounded_grows_iff (hfloat : toFloat64 cfg.cooldownFactor = cfg.cooldownFactor)
    (hc : 0 < cfg.cooldown) (hf : 1 ≤ cfg.cooldownFactor)
    (hmax : cfg.cooldown ≤ cfg.maxCooldown) (hn : 1 ≤ openCount) :
    (cfg.cooldown ≤ cfg.cooldownFor openCount ∧ cfg.cooldownFor openCount ≤ cfg.maxCooldown) ∧
      (cfg.cooldownFor openCount ≤ cfg.cooldownFor (openCount + 1) ↔
        (cfg.Overflows openCount → cfg.maxCooldown = cfg.cooldown ∨
          grown cfg.cooldownFactor cfg.cooldown (openCount - 1).toNat = cfg.cooldown)) := by
  rcases hf.lt_or_eq with hg | hone
  · have heq := cooldownFor_grown hfloat hc hg hmax hn
    have hne := @cooldownFor_grown cfg (openCount + 1) hfloat hc hg hmax (by omega)
    rw [add_sub_cancel_right] at hne
    have hs : openCount.toNat = (openCount - 1).toNat + 1 := by omega
    obtain ⟨hle, hgr⟩ := grown_le_succ hfloat hg hc (openCount - 1).toNat
    simp only [CircuitConfig.Overflows, hg, true_and]
    rw [hs] at hne ⊢
    split_ifs at heq hne with hfit hfi <;> omega
  · have heq := cooldownFor_eq hc hmax hn
    have hne := @cooldownFor_eq cfg (openCount + 1) hc hmax (by omega)
    rw [if_neg fun h => absurd h.1 hone.not_lt] at heq hne
    exact ⟨by omega, iff_of_true (by omega) fun ho => absurd ho.1 hone.not_lt⟩

/-- The third opening under the default configuration. -/
theorem default_third_opening :
    (30000000000 ≤ CircuitConfig.default.cooldownFor 3 ∧
      CircuitConfig.default.cooldownFor 3 ≤ 600000000000) ∧
      (CircuitConfig.default.cooldownFor 3 ≤ CircuitConfig.default.cooldownFor 4 ↔
        (CircuitConfig.default.Overflows 3 → (600000000000 : Int) = 30000000000 ∨
          grown CircuitConfig.default.cooldownFactor 30000000000 2 = 30000000000)) :=
  cooldown_bounded_grows_iff (by decide +kernel) (by decide) (by decide +kernel) (by decide)
    (by decide)

/-- With the default configuration the thirtieth opening is held for half a minute after
the twenty-ninth was held for ten. -/
theorem default_cooldown_drops :
    CircuitConfig.default.cooldownFor 29 = 600000000000 ∧
      CircuitConfig.default.cooldownFor 30 = 30000000000 := by
  decide +kernel

end

end LiteAIG.Execution
