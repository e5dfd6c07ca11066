import Mathlib.Algebra.Order.Field.Power
import Mathlib.Data.Rat.Cast.Order
import Mathlib.Tactic.FieldSimp
import Mathlib.Tactic.Linarith
import Mathlib.Tactic.NormNum
import Mathlib.Tactic.Positivity
import Mathlib.Tactic.Ring
import ScriptWarden.Numeric.Binary64

/-!
# How far rounding goes

A ratio that is rounded to a whole number is half of one away from it at most. A binary64 is a whole
number of units, where the unit is a power of two; so the one nearest to a ratio is half a unit away
from it at most, and the unit is small as long as the ratio is.

Values are rational numbers here, and signs are left out: a span of time has none.

## Results

* `roundDiv_near` — the whole number nearest to a ratio.
* `value_nearest_near` — the binary64 nearest to a ratio, and `exponentOf_le` — how large its unit is.
* `value_add_near` — a sum.
-/

namespace ScriptWarden

theorem twoTo_pos (n : Nat) : 0 < twoTo n := Nat.pow_pos (by decide)

/-- The two powers that a ratio is scaled by make up one power of the exponent. -/
theorem twoTo_ratio (e : Int) : (twoTo e.toNat : ℚ) = 2 ^ e * (twoTo (-e).toNat : ℚ) := by
  have hPower : ∀ n : Nat, (twoTo n : ℚ) = 2 ^ (n : Int) := by
    intro n
    rw [twoTo, Nat.pow_eq, zpow_natCast]
    norm_cast
  rw [hPower, hPower, ← zpow_add₀ (by decide)]
  congr 1
  omega

theorem roundDiv_near (num : Nat) {den : Nat} (h : 0 < den) :
    |(roundDiv num den : ℚ) - num / den| ≤ 1 / 2 := by
  have hDen : (0 : ℚ) < den := by exact_mod_cast h
  have hParts : (num : ℚ) = den * (num / den : Nat) + (num % den : Nat) := by
    exact_mod_cast (Nat.div_add_mod num den).symm
  have hShare : (num : ℚ) / den = (num / den : Nat) + (num % den : Nat) / den := by
    rw [hParts]
    field_simp
  rw [hShare, roundDiv]
  split
  · next hUp =>
    have hMore : den ≤ 2 * (num % den) := by
      simp only [Bool.or_eq_true, decide_eq_true_eq, Bool.and_eq_true, beq_iff_eq] at hUp
      omega
    have hLess : ((num % den : Nat) : ℚ) / den < 1 := by
      rw [div_lt_one hDen]
      exact_mod_cast Nat.mod_lt num h
    have hHalf : 1 / 2 ≤ ((num % den : Nat) : ℚ) / den := by
      rw [le_div_iff₀ hDen]
      have : (den : ℚ) ≤ 2 * (num % den : Nat) := by exact_mod_cast hMore
      linarith
    rw [abs_le]
    push_cast
    constructor <;> linarith
  · next hDown =>
    have hLess : 2 * (num % den) ≤ den := by
      simp only [Bool.or_eq_true, decide_eq_true_eq, Bool.and_eq_true, beq_iff_eq] at hDown
      omega
    have hHalf : ((num % den : Nat) : ℚ) / den ≤ 1 / 2 := by
      rw [div_le_iff₀ hDen]
      have : 2 * ((num % den : Nat) : ℚ) ≤ den := by exact_mod_cast hLess
      linarith
    have hNonneg : (0 : ℚ) ≤ ((num % den : Nat) : ℚ) / den := by positivity
    rw [abs_le]
    constructor <;> linarith

namespace Binary64

/-- The magnitude of a number. -/
def value (x : Binary64) : ℚ := x.mantissa * 2 ^ x.exponent

theorem den_pos (x : Binary64) : 0 < x.den := twoTo_pos _

theorem value_eq (x : Binary64) : x.value = x.num / x.den := by
  have hDen : (twoTo (-x.exponent).toNat : ℚ) ≠ 0 := by exact_mod_cast (twoTo_pos _).ne'
  rw [value, num, den, Nat.cast_mul, twoTo_ratio]
  field_simp

/-- The exponent of the nearest number, if a ratio is not above a power of two. -/
theorem exponentOf_le {a b k : Nat} (h : a ≤ 2 ^ k * b) :
    exponentOf a b ≤ max leastExponent (k - 52) := by
  have hLog : Nat.log2 a ≤ Nat.log2 b + k := by
    rcases Nat.eq_zero_or_pos a with rfl | ha
    · simp
    · have hBelow : a < 2 ^ (Nat.log2 b + 1 + k) := by
        calc a ≤ 2 ^ k * b := h
          _ < 2 ^ k * 2 ^ (Nat.log2 b + 1) := by
            exact Nat.mul_lt_mul_of_pos_left Nat.lt_log2_self (by positivity)
          _ = 2 ^ (Nat.log2 b + 1 + k) := by rw [Nat.pow_add 2 _ k, Nat.mul_comm]
      have := (Nat.log2_lt ha.ne').mpr hBelow
      omega
  rw [exponentOf]
  split <;> omega

/-- A ratio in units of a power of two, rounded. -/
theorem scaled_near (a : Nat) {b : Nat} (hb : 0 < b) (e : Int) :
    |(scaled a b e : ℚ) * 2 ^ e - a / b| ≤ 2 ^ (e - 1) := by
  have hUnit : (0 : ℚ) < 2 ^ e := by positivity
  have hDen : (twoTo (-e).toNat : ℚ) ≠ 0 := by exact_mod_cast (twoTo_pos _).ne'
  have hNear := roundDiv_near (a * twoTo (-e).toNat) (Nat.mul_pos hb (twoTo_pos e.toNat))
  have hShare : ((a * twoTo (-e).toNat : Nat) : ℚ) / (b * twoTo e.toNat : Nat) * 2 ^ e = a / b := by
    rw [Nat.cast_mul, Nat.cast_mul, twoTo_ratio e]
    field_simp
  calc |(scaled a b e : ℚ) * 2 ^ e - a / b|
      = |(scaled a b e : ℚ) - ((a * twoTo (-e).toNat : Nat) : ℚ) / (b * twoTo e.toNat : Nat)| *
          2 ^ e := by
        rw [← hShare, ← sub_mul, abs_mul, abs_of_pos hUnit]
    _ ≤ 1 / 2 * 2 ^ e := mul_le_mul_of_nonneg_right hNear hUnit.le
    _ = 2 ^ (e - 1) := by
        rw [zpow_sub₀ (by decide), zpow_one]
        ring

theorem value_nearest_near (negative : Bool) (a : Nat) {b : Nat} (hb : 0 < b) :
    |(nearest negative a b).value - a / b| ≤ 2 ^ (exponentOf a b - 1) := by
  have hUnit : (0 : ℚ) ≤ 2 ^ (exponentOf a b - 1) := by positivity
  rw [nearest]
  by_cases ha : a = 0
  · simp [ha, value]
    positivity
  rw [if_neg (by simpa using ha)]
  have hScaled := scaled_near a hb (exponentOf a b)
  -- a mantissa of one bit too many is the same number with the next unit
  have hValue : ∀ x : Binary64, x.value = scaled a b (exponentOf a b) * 2 ^ exponentOf a b →
      |x.value - a / b| ≤ 2 ^ (exponentOf a b - 1) := fun x hx => hx ▸ hScaled
  apply hValue
  dsimp only
  split
  · next hZero =>
    rw [beq_iff_eq] at hZero
    simp [value, hZero]
  · split
    · next hCarry =>
      rw [beq_iff_eq] at hCarry
      rw [value, hCarry, zpow_add₀ (by decide), zpow_one]
      simp only [twoTo]
      norm_num
      ring
    · rfl

/-- Half a unit of the numbers up to `2 ^ 6`. -/
def halfUnit : ℚ := 2 ^ (-47 : Int)

theorem value_nearest_of_le (negative : Bool) {a b : Nat} (hb : 0 < b) (h : a ≤ 64 * b) :
    |(nearest negative a b).value - a / b| ≤ halfUnit := by
  have hExponent : exponentOf a b ≤ -46 := (exponentOf_le (k := 6) h).trans (by decide)
  calc |(nearest negative a b).value - a / b| ≤ 2 ^ (exponentOf a b - 1) :=
        value_nearest_near negative a hb
    _ ≤ halfUnit := zpow_le_zpow_right₀ (by norm_num) (by omega)

theorem value_add_near {x y : Binary64} (h : x.value + y.value ≤ 64) :
    |(x.add y).value - (x.value + y.value)| ≤ halfUnit := by
  have hx : (x.den : ℚ) ≠ 0 := by exact_mod_cast x.den_pos.ne'
  have hy : (y.den : ℚ) ≠ 0 := by exact_mod_cast y.den_pos.ne'
  have hDen : 0 < x.den * y.den := Nat.mul_pos x.den_pos y.den_pos
  have hSum : ((x.num * y.den + y.num * x.den : Nat) : ℚ) / (x.den * y.den : Nat) =
      x.value + y.value := by
    rw [value_eq, value_eq]
    push_cast
    field_simp
  have hBelow : x.num * y.den + y.num * x.den ≤ 64 * (x.den * y.den) := by
    rw [← hSum, div_le_iff₀ (by exact_mod_cast hDen)] at h
    exact_mod_cast h
  rw [← hSum]
  exact value_nearest_of_le false hDen hBelow

theorem inUnits_near (x : Binary64) (places : Nat) :
    |(x.inUnits places : ℚ) - x.value * 10 ^ places| ≤ 1 / 2 := by
  have hNear := roundDiv_near (x.num * tenTo places) x.den_pos
  have hShare : ((x.num * tenTo places : Nat) : ℚ) / x.den = x.value * 10 ^ places := by
    rw [value_eq, tenTo, Nat.pow_eq]
    push_cast
    ring
  rwa [hShare] at hNear

end Binary64

end ScriptWarden
