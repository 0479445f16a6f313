import LuaExpander.Numeral.Double
import Mathlib.Algebra.Order.Field.Power
import Mathlib.Data.Rat.Cast.Order
import Mathlib.Tactic.Ring
import Mathlib.Tactic.Linarith

/-! When a number is too large for a float. Rounding goes to the nearest float, and of two that are
equally near to the even one. Above the largest float the next one would be 2^1024; numbers that are
at least half way to it have no float. -/
namespace LuaExpander.Double

/- The least number that is too large: half way from the largest float to 2^1024. -/
def limit : ℚ := 2 ^ 1024 - 2 ^ 970

variable {num den : Nat}

/- A half between two whole numbers goes up to `k`, because `k` is even. -/
theorem roundReaches (positive : 0 < den) {k : Nat} (even : k % 2 = 0) :
    k ≤ roundDiv num den ↔ (2 * k - 1) * den ≤ 2 * num := by
  have split := Nat.div_add_mod num den
  have small := Nat.mod_lt num positive
  unfold roundDiv
  dsimp only
  generalize num / den = whole at split ⊢
  generalize num % den = rest at split small ⊢
  have twice : 2 * num = 2 * whole * den + 2 * rest := by
    rw [← split]
    ring
  rw [twice]
  rcases Nat.lt_trichotomy k (whole + 1) with below | rfl | above
  · have reached : (2 * k - 1) * den ≤ 2 * whole * den := Nat.mul_le_mul_right den (by omega)
    constructor
    · intro _
      omega
    · intro _
      split <;> omega
  · have half : (2 * (whole + 1) - 1) * den = 2 * whole * den + den := by
      rw [show 2 * (whole + 1) - 1 = 2 * whole + 1 by omega]
      ring
    rw [half]
    split <;> omega
  · have missed : (2 * whole + 2) * den ≤ (2 * k - 1) * den := Nat.mul_le_mul_right den (by omega)
    have next : (2 * whole + 2) * den = 2 * whole * den + 2 * den := by ring
    constructor
    · intro reached
      split at reached <;> omega
    · intro _
      omega

theorem roundStays {k : Nat} (below : num < k * den) : roundDiv num den ≤ k := by
  have small : num / den < k := Nat.div_lt_of_lt_mul (by rwa [Nat.mul_comm] at below)
  unfold roundDiv
  dsimp only
  split <;> omega

theorem floorLog2Reaches (positive : 0 < num) (positiveDen : 0 < den) (k : Nat) :
    (k : Int) ≤ floorLog2 num den ↔ 2 ^ k * den ≤ num := by
  have numLow : 2 ^ num.log2 ≤ num := Nat.log2_self_le (by omega)
  have numHigh : num < 2 ^ (num.log2 + 1) := Nat.lt_log2_self
  have denLow : 2 ^ den.log2 ≤ den := Nat.log2_self_le (by omega)
  have denHigh : den < 2 ^ (den.log2 + 1) := Nat.lt_log2_self
  unfold floorLog2
  dsimp only
  generalize num.log2 = a at numLow numHigh ⊢
  generalize den.log2 = b at denLow denHigh ⊢
  by_cases smaller : (a : Int) - b < 0
  · have less : 2 ^ (a + 1) ≤ 2 ^ b := Nat.pow_le_pow_right (by decide) (by omega)
    have more : 1 * den ≤ 2 ^ k * den := Nat.mul_le_mul_right den Nat.one_le_two_pow
    constructor
    · intro reached
      split at reached <;> omega
    · intro reached
      omega
  · obtain ⟨g, rfl⟩ : ∃ g, a = b + g := ⟨a - b, by omega⟩
    have guess : ((b + g : Nat) : Int) - b = g := by omega
    have whole : ¬ (g : Int) < 0 := by omega
    simp only [guess, whole, if_false, Int.toNat_natCast]
    have power (m n : Nat) (le : m ≤ n) : 2 ^ m * den ≤ 2 ^ n * den :=
      Nat.mul_le_mul_right den (Nat.pow_le_pow_right (by decide) le)
    change (k : Int) ≤ (if num < den * 2 ^ g then (g : Int) - 1 else g) ↔ _
    rw [Nat.mul_comm den]
    split
    · rename_i below
      constructor
      · intro reached
        obtain ⟨g, rfl⟩ : ∃ h, g = h + 1 := ⟨g - 1, by omega⟩
        have := power k g (by omega)
        have : 2 ^ g * den ≤ 2 ^ g * 2 ^ (b + 1) := Nat.mul_le_mul_left _ denHigh.le
        have : 2 ^ g * 2 ^ (b + 1) = 2 ^ (b + (g + 1)) := by ring
        omega
      · intro reached
        by_contra missed
        have := power g k (by omega)
        omega
    · rename_i above
      constructor
      · intro reached
        have := power k g (by omega)
        omega
      · intro reached
        by_contra missed
        have := power (g + 1) k (by omega)
        have : 2 ^ (g + 1) * 2 ^ b ≤ 2 ^ (g + 1) * den := Nat.mul_le_mul_left _ denLow
        have : 2 ^ (g + 1) * 2 ^ b = 2 ^ (b + g + 1) := by ring
        omega

theorem ofRatioOverflows (filled : num ≠ 0) (negative : Bool) {exponent : Int} {mantissa : Nat}
    (isExponent : max (floorLog2 num den - 52) leastExponent = exponent)
    (isMantissa : (if exponent < 0 then roundDiv (num * Nat.pow 2 exponent.natAbs) den
      else roundDiv num (den * Nat.pow 2 exponent.toNat)) = mantissa) :
    (∃ s, ofRatio negative num den = .infinite s) ↔
      971 < exponent ∨ exponent = 971 ∧ mantissa = Nat.pow 2 53 := by
  unfold ofRatio
  rw [if_neg filled]
  dsimp only
  rw [isExponent, isMantissa]
  by_cases carries : mantissa = Nat.pow 2 53
  · rw [if_pos carries]
    dsimp only
    split
    · simp only [infinite.injEq, exists_eq', true_iff]
      omega
    · simp only [reduceCtorEq, exists_false, false_iff]
      omega
  · rw [if_neg carries]
    dsimp only
    split
    · simp only [infinite.injEq, exists_eq', true_iff]
      omega
    · simp only [reduceCtorEq, exists_false, false_iff]
      omega

theorem ofRatioInfinite (positiveDen : 0 < den) (negative : Bool) :
    (∃ s, ofRatio negative num den = .infinite s) ↔ (2 ^ 54 - 1) * (2 ^ 970 * den) ≤ num := by
  have positiveUnit : 0 < 2 ^ 970 * den := by positivity
  by_cases none : num = 0
  · subst none
    rw [ofRatio, if_pos rfl, zero]
    generalize 2 ^ 970 * den = unit at positiveUnit ⊢
    simp only [reduceCtorEq, exists_false, false_iff]
    omega
  have positive : 0 < num := by omega
  have power (k e : Nat) : 2 ^ (k + e) * den = 2 ^ k * (2 ^ e * den) := by
    rw [Nat.pow_add, Nat.mul_assoc]
  have scale (e : Nat) : den * Nat.pow 2 (e + 1) = 2 * (2 ^ e * den) := by
    rw [show Nat.pow 2 (e + 1) = 2 ^ e * 2 from Nat.pow_succ 2 e]
    ring
  have reachesHigh := floorLog2Reaches positive positiveDen (54 + 970)
  have reachesLow := floorLog2Reaches positive positiveDen (53 + 970)
  rw [power] at reachesHigh reachesLow
  rw [ofRatioOverflows none negative rfl rfl, leastExponent]
  rcases Int.lt_trichotomy (floorLog2 num den) 1023 with below | isTop | above
  · generalize 2 ^ 970 * den = unit at *
    constructor
    · rintro (overflows | ⟨overflows, -⟩) <;> omega
    · omega
  · rw [isTop, show max ((1023 : Int) - 52) (-1074) = 971 by decide, if_neg (by decide),
      show (971 : Int).toNat = 970 + 1 from rfl, scale 970]
    generalize 2 ^ 970 * den = unit at *
    have carries : 2 ^ 53 ≤ roundDiv num (2 * unit) ↔ _ := roundReaches (by omega) (by decide)
    have stays : roundDiv num (2 * unit) ≤ 2 ^ 53 := roundStays (by omega)
    rw [show Nat.pow 2 53 = 2 ^ 53 from rfl]
    omega
  · generalize 2 ^ 970 * den = unit at *
    omega

theorem limitFactor : limit = (2 ^ 54 - 1) * 2 ^ 970 := by
  have factor (e : Nat) : (2 : ℚ) ^ (54 + e) - 2 ^ e = (2 ^ 54 - 1) * 2 ^ e := by
    rw [pow_add, sub_mul, one_mul]
  exact factor 970

theorem limitReached (positiveDen : 0 < den) :
    limit ≤ (num : ℚ) / den ↔ (2 ^ 54 - 1) * (2 ^ 970 * den) ≤ num := by
  have positive : (0 : ℚ) < den := by exact_mod_cast positiveDen
  rw [le_div_iff₀ positive, limitFactor, mul_assoc]
  have whole (e : Nat) :
      ((2 : ℚ) ^ 54 - 1) * (2 ^ e * den) = ((2 ^ 54 - 1) * (2 ^ e * den) : ℕ) := by
    push_cast
    norm_num
  rw [whole, Nat.cast_le]

theorem limitBetween : 1 ≤ limit ∧ limit ≤ 2 ^ (1024 : Int) := by
  have power (e : Nat) : 1 ≤ ((2 : ℚ) ^ 54 - 1) * 2 ^ e ∧
      ((2 : ℚ) ^ 54 - 1) * 2 ^ e ≤ 2 ^ ((54 + e : Nat) : Int) := by
    have large : (1 : ℚ) ≤ 2 ^ e := one_le_pow₀ (by norm_num)
    rw [zpow_natCast, pow_add]
    constructor <;> nlinarith
  rw [limitFactor]
  exact power 970

theorem ofBinaryInfinite (negative : Bool) (n : Nat) (e : Int) :
    (∃ s, ofBinary negative n e = .infinite s) ↔ limit ≤ n * (2 : ℚ) ^ e := by
  obtain ⟨atLeast, atMost⟩ := limitBetween
  have power {d e : Int} (le : d ≤ e) : (2 : ℚ) ^ d ≤ 2 ^ e := zpow_le_zpow_right₀ (by norm_num) le
  have shift (k : Nat) : ((2 ^ k : Nat) : ℚ) * 2 ^ e = 2 ^ ((k : Int) + e) := by
    rw [zpow_add₀ (by norm_num), zpow_natCast, Nat.cast_pow, Nat.cast_ofNat]
  unfold ofBinary
  by_cases none : n = 0
  · rw [if_pos none, none, zero]
    simp only [reduceCtorEq, exists_false, false_iff, Nat.cast_zero, zero_mul]
    linarith
  have low : ((2 ^ n.log2 : Nat) : ℚ) ≤ n := by exact_mod_cast Nat.log2_self_le none
  have high : (n : ℚ) ≤ (2 ^ (n.log2 + 1) : Nat) := by exact_mod_cast Nat.lt_log2_self.le
  rw [if_neg none]
  dsimp only
  split
  · rename_i above
    simp only [infinite.injEq, exists_eq', true_iff]
    calc limit ≤ 2 ^ (1024 : Int) := atMost
      _ ≤ 2 ^ ((n.log2 : Int) + e) := power (by omega)
      _ = (2 ^ n.log2 : Nat) * 2 ^ e := (shift _).symm
      _ ≤ n * 2 ^ e := by gcongr
  split
  · rename_i below
    simp only [zero, reduceCtorEq, exists_false, false_iff, not_le]
    rw [leastExponent] at below
    calc (n : ℚ) * 2 ^ e ≤ (2 ^ (n.log2 + 1) : Nat) * 2 ^ e := by gcongr
      _ = 2 ^ (((n.log2 + 1 : Nat) : Int) + e) := shift _
      _ ≤ 2 ^ (-1 : Int) := power (by omega)
      _ < 1 := by norm_num
      _ ≤ limit := atLeast
  split
  · obtain ⟨k, rfl⟩ : ∃ k : Nat, e = -k := ⟨e.natAbs, by omega⟩
    have same : (n : ℚ) * 2 ^ (-(k : Int)) = n / (2 ^ k : Nat) := by
      rw [zpow_neg, zpow_natCast, ← div_eq_mul_inv, Nat.cast_pow, Nat.cast_ofNat]
    rw [Int.natAbs_neg, Int.natAbs_natCast, same, limitReached (Nat.two_pow_pos k)]
    exact ofRatioInfinite (Nat.two_pow_pos k) negative
  · obtain ⟨k, rfl⟩ : ∃ k : Nat, e = k := ⟨e.toNat, by omega⟩
    have same : (n : ℚ) * 2 ^ (k : Int) = (n * 2 ^ k : Nat) / (1 : Nat) := by
      rw [zpow_natCast, Nat.cast_one, div_one, Nat.cast_mul, Nat.cast_pow, Nat.cast_ofNat]
    rw [Int.toNat_natCast, same, limitReached Nat.one_pos]
    exact ofRatioInfinite Nat.one_pos negative

end LuaExpander.Double
