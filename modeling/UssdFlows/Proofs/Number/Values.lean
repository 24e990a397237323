import Mathlib.Algebra.Order.Field.Power
import Mathlib.Algebra.Order.Field.Rat
import Mathlib.Tactic.NormNum
import Mathlib.Tactic.Positivity
import UssdFlows.Number.Binary64

/-!
# The values of numbers

A finite number stands for a rational number, its value.  The same value has several
significands and exponents, and a comparison brings both sides to the smaller exponent
(`Binary64.units`), so it goes by the values alone (`less_iff`, `equal_iff`).
-/

namespace UssdFlows.Binary64

variable {x y : Binary64}

/-- The value of a finite number.  The other numbers have none and count as zero. -/
def value : Binary64 → ℚ
  | finite negative significand exponent =>
    (if negative then -1 else 1) * significand * 2 ^ exponent
  | _ => 0

/-- Brought to a smaller exponent, a number keeps its value. -/
theorem units_mul (negative : Bool) (significand : Nat) {exponent q : Int} (h : q ≤ exponent) :
    (units negative significand exponent q : ℚ) * 2 ^ q =
      (finite negative significand exponent).value := by
  have hpow : (2 : ℚ) ^ (exponent - q).toNat * 2 ^ q = 2 ^ exponent := by
    rw [← zpow_natCast, ← zpow_add₀ two_ne_zero, Int.toNat_of_nonneg (by omega), sub_add_cancel]
  cases negative <;> simp [units, value, ← hpow, mul_assoc]

/-- Two finite numbers are compared by whole numbers in the order of their values. -/
theorem exists_units (hx : x.isFinite = true) (hy : y.isFinite = true) :
    ∃ i j : Int, compare? x y = some (Ord.compare i j) ∧
      (i < j ↔ x.value < y.value) ∧ (i = j ↔ x.value = y.value) := by
  cases x with
  | finite a m p =>
      cases y with
      | finite b n q =>
          have hpos : (0 : ℚ) < 2 ^ min p q := by positivity
          refine ⟨units a m p (min p q), units b n q (min p q), rfl, ?_, ?_⟩
          · rw [← units_mul a m (min_le_left p q), ← units_mul b n (min_le_right p q),
              mul_lt_mul_iff_left₀ hpos, Int.cast_lt]
          · rw [← units_mul a m (min_le_left p q), ← units_mul b n (min_le_right p q),
              mul_left_inj' hpos.ne', Int.cast_inj]
      | infinite _ => cases hy
      | notANumber => cases hy
  | infinite _ => cases hx
  | notANumber => cases hx

/-- One finite number is less than another exactly if its value is. -/
theorem less_iff (hx : x.isFinite = true) (hy : y.isFinite = true) :
    x.less y = true ↔ x.value < y.value := by
  obtain ⟨i, j, hcompare, hlt, -⟩ := exists_units hx hy
  rw [less, hcompare, ← hlt, beq_iff_eq, Option.some.injEq, compare_lt_iff_lt]

/-- Finite numbers are equal exactly if their values are. -/
theorem equal_iff (hx : x.isFinite = true) (hy : y.isFinite = true) :
    x.equal y = true ↔ x.value = y.value := by
  obtain ⟨i, j, hcompare, -, heq⟩ := exists_units hx hy
  rw [equal, hcompare, ← heq, beq_iff_eq, Option.some.injEq, compare_eq_iff_eq]

theorem value_of_whole (n : Int) : (finite (n < 0) n.natAbs 0).value = n := by
  rcases lt_or_ge n 0 with hneg | hpos
  · rw [value, if_pos (decide_eq_true hneg), Nat.cast_natAbs, abs_of_neg hneg]
    simp
  · rw [value, if_neg (by simpa using hpos), Nat.cast_natAbs, abs_of_nonneg hpos]
    simp

/-- A finite number is compared with a whole number by its value. -/
theorem exceeds_iff {n : Int} (hx : x.isFinite = true) :
    x.exceeds n = true ↔ (n : ℚ) < x.value := by
  rw [exceeds, less_iff rfl hx, value_of_whole]

end UssdFlows.Binary64
