import Mathlib.Algebra.Order.AbsoluteValue.Basic
import Mathlib.Data.Nat.Digits.Defs
import Mathlib.Tactic.FieldSimp
import Mathlib.Tactic.Linarith
import Mathlib.Tactic.LinearCombination
import Mathlib.Tactic.Ring
import UssdFlows.Proofs.Number.Values

/-!
# The nearest number of the format

A quotient is turned into the number of the format that is nearest to it, of two that are
equally near the one with the even significand (`IsNearest`, `isNearest_ofRatio`), which
settles the value (`IsNearest.unique`).  From `2 ^ 1024 - 2 ^ 970` on, halfway between the
greatest number of the format and the next power of two, it is an infinity
(`ofRatio_overflow`).  Rounding keeps the order: it passes no number of the format
(`IsNearest.value_le`), and a number beyond the middle of two others stays above the lower
one (`IsNearest.lt_value`).

A whole number up to `2 ^ 53` is a number of the format itself.
-/

namespace UssdFlows.Binary64

variable {x y z : Binary64} {r : ℚ} {m num den : Nat} {q : Int}

/-! ## The nearest number -/

/-- The significand of a finite number. -/
def significand : Binary64 → Nat
  | finite _ significand _ => significand
  | _ => 0

/-- The number is one of the finite numbers of the format. -/
def InFormat : Binary64 → Prop
  | finite _ significand exponent =>
    significand < Nat.pow 2 53 ∧ leastExponent ≤ exponent ∧ exponent ≤ greatestExponent
  | _ => False

/-- Of the finite numbers of the format `x` is nearest to `r`, and if another one is as
near, the significand of `x` is even. -/
structure IsNearest (x : Binary64) (r : ℚ) : Prop where
  inFormat : x.InFormat
  le : ∀ y : Binary64, y.InFormat → |x.value - r| ≤ |y.value - r|
  even : ∀ y : Binary64, y.InFormat → y.value ≠ x.value → |x.value - r| = |y.value - r| →
    x.significand % 2 = 0

/-- The least whole number that rounds beyond the greatest number of the format. -/
def overflow : Nat := Nat.pow 2 1024 - Nat.pow 2 970

theorem InFormat.isFinite (h : x.InFormat) : x.isFinite = true := by
  cases x <;> first | rfl | exact absurd h id

/-- A number of the format is its own nearest number. -/
theorem isNearest_of_value_eq (hx : x.InFormat) (h : x.value = r) : x.IsNearest r where
  inFormat := hx
  le y _ := by
    rw [h, sub_self, abs_zero]
    exact abs_nonneg _
  even y _ hne heq := by
    rw [h, sub_self, abs_zero, eq_comm, abs_eq_zero, sub_eq_zero] at heq
    exact absurd (heq.trans h.symm) hne

/-- What is a number of the format is not rounded. -/
theorem IsNearest.value_eq (h : x.IsNearest r) (hy : y.InFormat) (hvalue : y.value = r) :
    x.value = r := by
  have hle := h.le y hy
  rw [hvalue, sub_self, abs_zero] at hle
  exact sub_eq_zero.1 (abs_eq_zero.1 (le_antisymm hle (abs_nonneg _)))

/-- If all other numbers of the format are at least a half unit away, a number at most a
half unit away is nearest, provided it is even where it is exactly that far. -/
theorem isNearest_of_gap {unit : ℚ} (hx : x.InFormat) (hle : 2 * |x.value - r| ≤ unit)
    (heven : 2 * |x.value - r| = unit → x.significand % 2 = 0)
    (hgap : ∀ y : Binary64, y.InFormat → y.value ≠ x.value → unit ≤ 2 * |y.value - r|) :
    x.IsNearest r where
  inFormat := hx
  le y hy := by
    by_cases h : y.value = x.value
    · rw [h]
    · linarith [hgap y hy h]
  even y hy hne heq := heven (by linarith [hgap y hy hne])

/-- Rounding does not pass a number of the format. -/
theorem IsNearest.value_le (h : x.IsNearest r) (hy : y.InFormat) (hle : r ≤ y.value) :
    x.value ≤ y.value := by
  by_contra hlt
  have hnear := h.le y hy
  rw [abs_of_nonneg (by linarith), abs_of_nonneg (by linarith)] at hnear
  linarith

/-- A number beyond the middle of two numbers of the format is rounded above the lower
one. -/
theorem IsNearest.lt_value (h : x.IsNearest r) (hz : z.InFormat) (hyz : y.value < z.value)
    (hmiddle : y.value + z.value < 2 * r) : y.value < x.value := by
  by_contra hle
  have hnear := h.le z hz
  have hx : r - x.value ≤ |x.value - r| := by
    rw [abs_sub_comm]
    exact le_abs_self _
  have hz' : |z.value - r| < r - y.value := abs_lt.2 ⟨by linarith, by linarith⟩
  linarith

/-! ## The other sign -/

@[simp] theorem value_negate (x : Binary64) : x.negate.value = -x.value := by
  cases x with
  | finite negative _ _ => cases negative <;> simp [negate, value]
  | infinite _ => exact neg_zero.symm
  | notANumber => exact neg_zero.symm

theorem InFormat.negate (h : x.InFormat) : x.negate.InFormat := by
  cases x <;> exact h

@[simp] theorem significand_negate (x : Binary64) : x.negate.significand = x.significand := by
  cases x <;> rfl

/-- Rounding treats both signs alike. -/
theorem IsNearest.negate (h : x.IsNearest r) : x.negate.IsNearest (-r) := by
  have hmirror (y : Binary64) : |y.value - -r| = |y.negate.value - r| := by
    rw [value_negate, ← abs_neg (-y.value - r)]
    congr 1
    ring
  have hself : |x.negate.value - -r| = |x.value - r| := by
    rw [hmirror, value_negate, value_negate, neg_neg]
  refine ⟨h.inFormat.negate, fun y hy => ?_, fun y hy hne heq => ?_⟩
  · rw [hself, hmirror y]
    exact h.le _ hy.negate
  · rw [hself, hmirror y] at heq
    rw [significand_negate]
    refine h.even _ hy.negate (fun hsame => hne ?_) heq
    rw [value_negate, ← hsame, value_negate, neg_neg]

theorem ofRatio_negate (num den : Nat) : ofRatio true num den = (ofRatio false num den).negate := by
  simp only [ofRatio, apply_ite negate]
  rfl

/-! ## Rounded quotients -/

/-- A rounded quotient differs from the quotient by a half at most, and is even if the
difference is a half. -/
theorem roundQuotient_halves (num : Nat) {den : Nat} (h : 0 < den) :
    2 * (roundQuotient num den * den) ≤ 2 * num + den ∧
      2 * num ≤ 2 * (roundQuotient num den * den) + den ∧
      (2 * (roundQuotient num den * den) = 2 * num + den ∨
        2 * num = 2 * (roundQuotient num den * den) + den → roundQuotient num den % 2 = 0) := by
  have hsplit : den * (num / den) + num % den = num := Nat.div_add_mod num den
  have hrest : num % den < den := Nat.mod_lt num h
  have hhere : num / den * den = den * (num / den) := Nat.mul_comm _ _
  have hnext : (num / den + 1) * den = den * (num / den) + den := by ring
  simp only [roundQuotient]
  split
  · rw [hhere]; omega
  · split
    · rw [hnext]; omega
    · split
      · rw [hhere]; omega
      · rw [hnext]; omega

theorem roundQuotient_near (num : Nat) {den : Nat} (h : 0 < den) :
    2 * |(roundQuotient num den : ℚ) * den - num| ≤ den ∧
      (2 * |(roundQuotient num den : ℚ) * den - num| = den → roundQuotient num den % 2 = 0) := by
  obtain ⟨habove, hbelow, heven⟩ := roundQuotient_halves num h
  generalize roundQuotient num den = w at *
  have habove' : (2 : ℚ) * (w * den) ≤ 2 * num + den := by exact_mod_cast habove
  have hbelow' : (2 : ℚ) * num ≤ 2 * (w * den) + den := by exact_mod_cast hbelow
  rcases abs_cases ((w : ℚ) * den - num) with ⟨habs, -⟩ | ⟨habs, -⟩
  · refine ⟨by rw [habs]; linarith, fun heq => heven (.inl ?_)⟩
    have hhalf : (2 : ℚ) * (w * den) = 2 * num + den := by linarith
    exact_mod_cast hhalf
  · refine ⟨by rw [habs]; linarith, fun heq => heven (.inr ?_)⟩
    have hhalf : (2 : ℚ) * num = 2 * (w * den) + den := by linarith
    exact_mod_cast hhalf

/-- A number of the format is a multiple of a unit, or it lies at least half a unit below
`2 ^ 52` units. -/
theorem multiple_or_below (hy : y.InFormat) (q : Int) :
    (∃ j : Int, y.value = j * 2 ^ q) ∨
      leastExponent < q ∧ y.value + 2 ^ q / 2 ≤ 2 ^ 52 * 2 ^ q := by
  cases y with
  | finite b n p =>
      obtain ⟨hn, hleast, -⟩ := hy
      rcases le_or_gt q p with hq | hq
      · exact .inl ⟨units b n p q, (units_mul b n hq).symm⟩
      · refine .inr ⟨hleast.trans_lt hq, ?_⟩
        have hhalf : (2 : ℚ) ^ q / 2 = 2 ^ (q - 1) := by
          rw [zpow_sub_one₀ two_ne_zero, div_eq_mul_inv]
        have hpos : (0 : ℚ) < 2 ^ p := by positivity
        have hpow : (2 : ℚ) ^ p ≤ 2 ^ q / 2 := by
          rw [hhalf]
          exact zpow_le_zpow_right₀ one_le_two (by omega)
        have hdigits : (n : ℚ) + 1 ≤ 2 ^ 53 := by exact_mod_cast hn
        have hnonneg : (0 : ℚ) ≤ n := n.cast_nonneg
        have hvalue : (finite b n p).value ≤ n * 2 ^ p := by
          cases b <;> simp only [value] <;> norm_num
          linarith [mul_nonneg hnonneg hpos.le]
        have hle : (n : ℚ) * 2 ^ p ≤ n * (2 ^ q / 2) := mul_le_mul_of_nonneg_left hpow hnonneg
        have hunit : ((n : ℚ) + 1) * (2 ^ q / 2) ≤ 2 ^ 53 * (2 ^ q / 2) :=
          mul_le_mul_of_nonneg_right hdigits (by positivity)
        linarith
  | infinite _ => exact hy.elim
  | notANumber => exact hy.elim

/-- A number of the format with the value of a rounded quotient is nearest to the quotient:
`num / den` is `r` in units of `2 ^ q`, and has 53 digits unless the unit is the least one. -/
theorem isNearest_of_rounded (hden : 0 < den) (hnum : (num : ℚ) * 2 ^ q = r * den)
    (hdigits : leastExponent < q → 2 ^ 52 * 2 ^ q ≤ r) (hx : x.InFormat)
    (hvalue : x.value = roundQuotient num den * 2 ^ q)
    (heven : roundQuotient num den % 2 = 0 → x.significand % 2 = 0) : x.IsNearest r := by
  have hunit : (0 : ℚ) < 2 ^ q := by positivity
  have hden' : (0 : ℚ) < den := Nat.cast_pos.2 hden
  obtain ⟨hnear, htie⟩ := roundQuotient_near num hden
  -- the distance in units, multiplied by the denominator
  have hscale : 2 * |x.value - r| * den =
      2 * |(roundQuotient num den : ℚ) * den - num| * 2 ^ q := by
    have hdiff : (x.value - r) * den = ((roundQuotient num den : ℚ) * den - num) * 2 ^ q := by
      rw [hvalue]
      linear_combination hnum
    have habs := congrArg abs hdiff
    rw [abs_mul, abs_mul, abs_of_pos hden', abs_of_pos hunit] at habs
    rw [mul_assoc, habs, mul_assoc]
  have hhalf : 2 * |x.value - r| ≤ 2 ^ q := by
    refine le_of_mul_le_mul_right ?_ hden'
    rw [hscale, mul_comm (2 ^ q)]
    exact mul_le_mul_of_nonneg_right hnear hunit.le
  refine isNearest_of_gap hx hhalf (fun h => heven (htie ?_)) fun y hy hne => ?_
  · rw [h, mul_comm] at hscale
    exact (mul_right_cancel₀ hunit.ne' hscale).symm
  · rcases multiple_or_below hy q with ⟨j, hj⟩ | ⟨hq, hbelow⟩
    · -- two multiples of the unit are at least a unit apart
      have hapart : (2 : ℚ) ^ q ≤ |y.value - x.value| := by
        rw [hj, hvalue, ← sub_mul, abs_mul, abs_of_pos hunit]
        have hj : j ≠ roundQuotient num den := by
          rintro rfl
          exact hne (by rw [hj, hvalue, Int.cast_natCast])
        have hone : (1 : ℚ) ≤ |(j : ℚ) - roundQuotient num den| := by
          exact_mod_cast Int.one_le_abs (sub_ne_zero.2 hj)
        exact le_mul_of_one_le_left hunit.le hone
      have htriangle : |y.value - x.value| ≤ |y.value - r| + |x.value - r| := by
        rw [abs_sub_comm x.value]
        exact abs_sub_le ..
      linarith
    · rw [abs_sub_comm]
      linarith [le_abs_self (r - y.value), hdigits hq]

/-! ## Rounding a quotient -/

/-- Scaling changes the unit of a quotient. -/
theorem scaled_spec (num : Nat) (hden : 0 < den) (q : Int) :
    0 < (scaled num den q).2 ∧
      ((scaled num den q).1 : ℚ) * 2 ^ q = num / den * (scaled num den q).2 := by
  have hden' : (den : ℚ) ≠ 0 := Nat.cast_ne_zero.2 hden.ne'
  cases q with
  | ofNat n =>
      refine ⟨Nat.mul_pos hden (Nat.two_pow_pos n), ?_⟩
      show (num : ℚ) * 2 ^ (n : Int) = num / den * (den * 2 ^ n : Nat)
      rw [zpow_natCast]
      push_cast
      field_simp
  | negSucc n =>
      refine ⟨hden, ?_⟩
      show ((num * 2 ^ (n + 1) : Nat) : ℚ) * 2 ^ (Int.negSucc n) = num / den * den
      rw [zpow_negSucc]
      push_cast
      field_simp

/-- Scaled by the first exponent that is tried, a quotient has 53 or 54 digits before the
point. -/
theorem first_exponent_bounds (hnum : num ≠ 0) (hden : 0 < den) {q : Int}
    (hq : q = (Nat.log2 num : Int) - (Nat.log2 den : Int) - 53) :
    2 ^ 52 * 2 ^ q ≤ (num / den : ℚ) ∧ (num / den : ℚ) < 2 ^ 54 * 2 ^ q := by
  have hden' : (0 : ℚ) < den := Nat.cast_pos.2 hden
  have hnumlow : (2 : ℚ) ^ num.log2 ≤ num := by exact_mod_cast Nat.log2_self_le hnum
  have hnumhigh : (num : ℚ) < 2 ^ (num.log2 + 1) := by
    exact_mod_cast (Nat.lt_log2_self : num < 2 ^ (num.log2 + 1))
  have hdenlow : (2 : ℚ) ^ den.log2 ≤ den := by exact_mod_cast Nat.log2_self_le hden.ne'
  have hdenhigh : (den : ℚ) < 2 ^ (den.log2 + 1) := by
    exact_mod_cast (Nat.lt_log2_self : den < 2 ^ (den.log2 + 1))
  have hpow : (2 : ℚ) ^ q * 2 ^ den.log2 * 2 ^ 53 = 2 ^ num.log2 := by
    rw [← zpow_natCast, ← zpow_natCast, ← zpow_natCast, ← zpow_add₀ two_ne_zero,
      ← zpow_add₀ two_ne_zero, hq]
    congr 1
    push_cast
    ring
  have hpos : (0 : ℚ) < 2 ^ q := by positivity
  rw [le_div_iff₀ hden', div_lt_iff₀ hden']
  rw [pow_succ] at hnumhigh hdenhigh
  constructor
  · nlinarith
  · nlinarith

/-- A quotient has at most 53 digits before the point if its whole part has. -/
theorem div_lt_iff_scaled (num : Nat) (hden : 0 < den) (q : Int) :
    (scaled num den q).1 / (scaled num den q).2 < 2 ^ 53 ↔
      (num / den : ℚ) < 2 ^ 53 * 2 ^ q := by
  obtain ⟨hpos, hunit⟩ := scaled_spec num hden q
  have hpos' : (0 : ℚ) < (scaled num den q).2 := Nat.cast_pos.2 hpos
  have hpow : (0 : ℚ) < 2 ^ q := by positivity
  have hcast : (((2 ^ 53 * (scaled num den q).2 : Nat) : ℚ)) * 2 ^ q =
      2 ^ 53 * 2 ^ q * (scaled num den q).2 := by
    rw [Nat.cast_mul, Nat.cast_pow, Nat.cast_ofNat, mul_right_comm]
  have hlt : (scaled num den q).1 < 2 ^ 53 * (scaled num den q).2 ↔
      ((scaled num den q).1 : ℚ) < (2 ^ 53 * (scaled num den q).2 : Nat) := Nat.cast_lt.symm
  rw [Nat.div_lt_iff_lt_mul hpos, hlt, ← mul_lt_mul_iff_left₀ hpow, hunit, hcast,
    mul_lt_mul_iff_left₀ hpos']

/-- The exponent for a quotient gives it 53 digits before the point, or fewer if it is the
least one. -/
theorem exponentFor_spec (hnum : num ≠ 0) (hden : 0 < den) :
    leastExponent ≤ exponentFor num den ∧
      (num / den : ℚ) < 2 ^ 53 * 2 ^ exponentFor num den ∧
      (leastExponent < exponentFor num den →
        2 ^ 52 * 2 ^ exponentFor num den ≤ (num / den : ℚ)) := by
  generalize hfirst : (Nat.log2 num : Int) - (Nat.log2 den : Int) - 53 = q
  obtain ⟨hlow, hhigh⟩ := first_exponent_bounds hnum hden hfirst.symm
  -- the first exponent, or the next one
  obtain ⟨p, hp, hlow, hhigh⟩ : ∃ p : Int,
      exponentFor num den = (if p < leastExponent then leastExponent else p) ∧
        2 ^ 52 * 2 ^ p ≤ (num / den : ℚ) ∧ (num / den : ℚ) < 2 ^ 53 * 2 ^ p := by
    have hexp : exponentFor num den = if
        (if (scaled num den q).1 / (scaled num den q).2 < 2 ^ 53 then q else q + 1) <
          leastExponent then leastExponent
        else if (scaled num den q).1 / (scaled num den q).2 < 2 ^ 53 then q else q + 1 := by
      rw [← hfirst]
      rfl
    by_cases hshort : (scaled num den q).1 / (scaled num den q).2 < 2 ^ 53
    · exact ⟨q, by rw [hexp, if_pos hshort], hlow, (div_lt_iff_scaled num hden q).1 hshort⟩
    · have hnext := not_lt.1 (mt (div_lt_iff_scaled num hden q).2 hshort)
      have hpow : (2 : ℚ) ^ (q + 1) = 2 ^ q * 2 := zpow_add_one₀ two_ne_zero q
      refine ⟨q + 1, by rw [hexp, if_neg hshort], ?_, ?_⟩
      · rw [hpow]
        linarith
      · rw [hpow]
        linarith
  rw [hp]
  split
  · rename_i hleast
    refine ⟨le_refl _, hhigh.trans_le ?_, fun h => absurd h (lt_irrefl _)⟩
    exact mul_le_mul_of_nonneg_left (zpow_le_zpow_right₀ one_le_two hleast.le) (by positivity)
  · rename_i hleast
    exact ⟨not_lt.1 hleast, hhigh, fun _ => hlow⟩

/-- A quotient that is not zero is rounded to a whole number of its units.  The round number
after the greatest one of 53 digits is written with the next exponent. -/
theorem ofRatio_eq (negative : Bool) (hnum : num ≠ 0) :
    ofRatio negative num den =
      let q := exponentFor num den
      let w := roundQuotient (scaled num den q).1 (scaled num den q).2
      if w < 2 ^ 53 then
        if q > greatestExponent then infinite negative else finite negative w q
      else if q + 1 > greatestExponent then infinite negative
      else finite negative (2 ^ 52) (q + 1) := by
  dsimp only
  generalize hw : roundQuotient (scaled num den (exponentFor num den)).1
    (scaled num den (exponentFor num den)).2 = w
  simp only [ofRatio, if_neg hnum, hw]
  by_cases hround : w < 2 ^ 53
  · have hround' : w < Nat.pow 2 53 := hround
    simp only [if_pos hround, if_pos hround']
  · have hround' : ¬ w < Nat.pow 2 53 := hround
    simp only [if_neg hround, if_neg hround']
    rfl

/-- The digits of a rounded quotient: at most one more than the greatest number of 53 digits,
and at most a half away from the quotient; the even one of two that are as near. -/
theorem rounded_spec (hnum : num ≠ 0) (hden : 0 < den) :
    let q := exponentFor num den
    let w := roundQuotient (scaled num den q).1 (scaled num den q).2
    w ≤ 2 ^ 53 ∧ 2 * w * 2 ^ q ≤ 2 * (num / den : ℚ) + 2 ^ q ∧
      2 * (num / den : ℚ) ≤ 2 * w * 2 ^ q + 2 ^ q ∧
      (2 * (num / den : ℚ) = 2 * w * 2 ^ q + 2 ^ q → w % 2 = 0) := by
  dsimp only
  obtain ⟨hpos, hunit⟩ := scaled_spec num hden (exponentFor num den)
  have hdigits := (div_lt_iff_scaled num hden _).2 (exponentFor_spec hnum hden).2.1
  have hround := (roundQuotient_bounds (scaled num den (exponentFor num den)).1
    (scaled num den (exponentFor num den)).2).2
  obtain ⟨habove, hbelow, heven⟩ :=
    roundQuotient_halves (scaled num den (exponentFor num den)).1 hpos
  generalize roundQuotient _ _ = w at *
  generalize (scaled num den (exponentFor num den)).1 = n at *
  generalize (scaled num den (exponentFor num den)).2 = d at *
  generalize exponentFor num den = q at *
  have hd : (0 : ℚ) < d := Nat.cast_pos.2 hpos
  have hpow : (0 : ℚ) < 2 ^ q := by positivity
  have habove' : (2 : ℚ) * (w * d) ≤ 2 * n + d := by exact_mod_cast habove
  have hbelow' : (2 : ℚ) * n ≤ 2 * (w * d) + d := by exact_mod_cast hbelow
  refine ⟨hround.trans hdigits, le_of_mul_le_mul_right ?_ hd, le_of_mul_le_mul_right ?_ hd,
    fun h => heven (.inr ?_)⟩
  · linarith [mul_le_mul_of_nonneg_right habove' hpow.le]
  · linarith [mul_le_mul_of_nonneg_right hbelow' hpow.le]
  · have hcast : (2 : ℚ) * n = 2 * (w * d) + d := by
      refine mul_right_cancel₀ hpow.ne' ?_
      linear_combination 2 * hunit + d * h
    exact_mod_cast hcast

/-- The limit lies half a unit below `2 ^ 53` units of the greatest exponent. -/
theorem overflow_spec :
    ∃ unit : ℚ, (2 : ℚ) ^ greatestExponent = unit ∧ 0 < unit ∧
      2 * (overflow : ℚ) + unit = 2 ^ 54 * unit := by
  have h : 2 * overflow + 2 ^ 971 = 2 ^ 54 * 2 ^ 971 := by decide +kernel
  have hcast : ((2 * overflow + 2 ^ 971 : Nat) : ℚ) = (2 ^ 54 * 2 ^ 971 : Nat) := congrArg _ h
  simp only [Nat.cast_add, Nat.cast_mul, Nat.cast_pow, Nat.cast_ofNat] at hcast
  exact ⟨2 ^ 971, zpow_natCast 2 971, by positivity, hcast⟩

theorem lt_overflow : 2 ^ 53 < overflow := by decide +kernel

/-- A quotient below the limit becomes the nearest number of the format. -/
theorem isNearest_ofRatio (hden : 0 < den) (h : (num / den : ℚ) < overflow) :
    (ofRatio false num den).IsNearest (num / den) := by
  by_cases hnum : num = 0
  · subst hnum
    refine isNearest_of_value_eq ⟨by decide, by decide, by decide⟩ ?_
    simp [ofRatio, value]
  obtain ⟨hleast, -, hdigits⟩ := exponentFor_spec hnum hden
  obtain ⟨hround, habove, -, -⟩ := rounded_spec hnum hden
  obtain ⟨hpos, hunit⟩ := scaled_spec num hden (exponentFor num den)
  obtain ⟨unit, hlast, hpos', htwo⟩ := overflow_spec
  rw [ofRatio_eq false hnum]
  dsimp only
  generalize hw : roundQuotient (scaled num den (exponentFor num den)).1
    (scaled num den (exponentFor num den)).2 = w at *
  generalize exponentFor num den = q at *
  have hgreatest : q ≤ greatestExponent := by
    by_contra hq
    have hq' : greatestExponent + 1 ≤ q := not_le.1 hq
    have hpow : unit * 2 ≤ 2 ^ q := by
      rw [← hlast, ← zpow_add_one₀ two_ne_zero]
      exact zpow_le_zpow_right₀ one_le_two hq'
    linarith [hdigits (lt_of_lt_of_le (by decide) hq')]
  by_cases hfull : w < 2 ^ 53
  · rw [if_pos hfull, if_neg (not_lt.2 hgreatest)]
    refine isNearest_of_rounded hpos hunit hdigits ⟨hfull, hleast, hgreatest⟩ ?_ fun heven => ?_
    · rw [hw, value, if_neg Bool.false_ne_true, one_mul]
    · rwa [hw] at heven
  · have hfull' : w = 2 ^ 53 := le_antisymm hround (not_lt.1 hfull)
    have hnext : q + 1 ≤ greatestExponent := by
      refine lt_of_le_of_ne hgreatest ?_
      rintro rfl
      rw [hfull', hlast, Nat.cast_pow, Nat.cast_ofNat] at habove
      linarith
    rw [if_neg hfull, if_neg (not_lt.2 hnext)]
    refine isNearest_of_rounded hpos hunit hdigits
      ⟨by decide, hleast.trans (Int.le_add_one (le_refl q)), hnext⟩ ?_ fun _ =>
        (by decide : 2 ^ 52 % 2 = 0)
    rw [hw, hfull', value, if_neg Bool.false_ne_true, one_mul, zpow_add_one₀ two_ne_zero,
      Nat.cast_pow, Nat.cast_pow, Nat.cast_ofNat]
    ring

/-- A quotient from the limit on becomes an infinity. -/
theorem ofRatio_overflow (hden : 0 < den) (h : (overflow : ℚ) ≤ num / den) :
    ofRatio false num den = infinite false := by
  have hnum : num ≠ 0 := by
    rintro rfl
    rw [Nat.cast_zero, zero_div, ← Nat.cast_zero, Nat.cast_le] at h
    exact absurd (Nat.zero_lt_of_lt lt_overflow) h.not_gt
  obtain ⟨-, hhigh, -⟩ := exponentFor_spec hnum hden
  obtain ⟨hround, -, hbelow, heven⟩ := rounded_spec hnum hden
  obtain ⟨unit, hlast, hpos', htwo⟩ := overflow_spec
  rw [ofRatio_eq false hnum]
  dsimp only
  generalize roundQuotient (scaled num den (exponentFor num den)).1
    (scaled num den (exponentFor num den)).2 = w at *
  generalize exponentFor num den = q at *
  have hgreatest : greatestExponent ≤ q := by
    by_contra hq
    have hpow : (2 : ℚ) ^ q * 2 ≤ unit := by
      rw [← hlast, ← zpow_add_one₀ two_ne_zero]
      exact zpow_le_zpow_right₀ one_le_two (not_le.1 hq)
    linarith
  have hnext : q + 1 > greatestExponent := Int.lt_add_one_of_le hgreatest
  rcases hgreatest.eq_or_lt with rfl | hlt
  · have hfull : ¬ w < 2 ^ 53 := by
      -- the number before is odd, so half a unit above it is rounded up
      intro hw
      rw [hlast] at hbelow heven
      have hw' : (w : ℚ) + 1 ≤ 2 ^ 53 := by exact_mod_cast hw
      have hle : (w : ℚ) * unit + unit ≤ 2 ^ 53 * unit := by
        linarith [mul_le_mul_of_nonneg_right hw' hpos'.le]
      have hodd : w % 2 = 0 := heven (by linarith)
      have hlast' : (w : ℚ) + 1 = 2 ^ 53 :=
        mul_right_cancel₀ hpos'.ne' (by linarith)
      have hcast : w + 1 = 2 ^ 53 := by exact_mod_cast hlast'
      omega
    rw [if_neg hfull, if_pos hnext]
  · rw [if_pos hnext, if_pos hlt, ite_self]

/-- Up to `2 ^ 53` a whole number is not rounded. -/
theorem IsNearest.value_whole (h : x.IsNearest (m : ℚ)) (hm : m ≤ 2 ^ 53) : x.value = m := by
  rcases hm.eq_or_lt with rfl | hlt
  · refine h.value_eq (y := finite false (2 ^ 52) 1) ⟨by decide, by decide, by decide⟩ ?_
    norm_num [value]
  · refine h.value_eq (y := finite false m 0) ⟨hlt, by decide, by decide⟩ ?_
    simp [value]

/-! ## One nearest value -/

theorem two_dvd_units {significand : Nat} (h : significand % 2 = 0) (negative : Bool)
    (exponent q : Int) : 2 ∣ units negative significand exponent q := by
  have hdvd : (2 : Int) ∣ significand * Nat.pow 2 (exponent - q).toNat :=
    Dvd.dvd.mul_right (by omega) _
  cases negative
  · exact hdvd
  · exact (Int.dvd_neg).2 hdvd

theorem natAbs_units_self (negative : Bool) (significand : Nat) (exponent : Int) :
    (units negative significand exponent exponent).natAbs = significand := by
  cases negative <;> simp [units]

/-- Every whole multiple of a unit with few enough digits is a number of the format. -/
theorem exists_of_digits {i q : Int} (hi : i.natAbs < Nat.pow 2 53)
    (hq : leastExponent ≤ q ∧ q ≤ greatestExponent) :
    ∃ z : Binary64, z.InFormat ∧ z.value = i * 2 ^ q := by
  rcases lt_or_ge i 0 with hneg | hpos
  · refine ⟨finite true i.natAbs q, ⟨hi, hq⟩, ?_⟩
    rw [value, if_pos rfl, Nat.cast_natAbs, abs_of_neg hneg]
    push_cast
    ring
  · refine ⟨finite false i.natAbs q, ⟨hi, hq⟩, ?_⟩
    rw [value, if_neg Bool.false_ne_true, Nat.cast_natAbs, abs_of_nonneg hpos, one_mul]

theorem exists_inside {i j k q : Int} (hik : i < k) (hkj : k < j) (hk : k.natAbs < Nat.pow 2 53)
    (hq : leastExponent ≤ q ∧ q ≤ greatestExponent) :
    ∃ z : Binary64, z.InFormat ∧ (i : ℚ) * 2 ^ q < z.value ∧ z.value < (j : ℚ) * 2 ^ q := by
  have hpos : (0 : ℚ) < 2 ^ q := by positivity
  obtain ⟨z, hz, hvalue⟩ := exists_of_digits hk hq
  refine ⟨z, hz, ?_⟩
  rw [hvalue]
  exact ⟨mul_lt_mul_of_pos_right (Int.cast_lt.2 hik) hpos,
    mul_lt_mul_of_pos_right (Int.cast_lt.2 hkj) hpos⟩

/-- Between two numbers with even significands stands a third one: next to the one with the
smaller exponent. -/
theorem exists_between (hx : x.InFormat) (hy : y.InFormat) (hlt : x.value < y.value)
    (hxeven : x.significand % 2 = 0) (hyeven : y.significand % 2 = 0) :
    ∃ z : Binary64, z.InFormat ∧ x.value < z.value ∧ z.value < y.value := by
  cases x with
  | finite a m p =>
      cases y with
      | finite b n q =>
          have hm : m < 2 ^ 53 ∧ m % 2 = 0 := ⟨hx.1, hxeven⟩
          have hn : n < 2 ^ 53 ∧ n % 2 = 0 := ⟨hy.1, hyeven⟩
          have hi := two_dvd_units hm.2 a p (min p q)
          have hj := two_dvd_units hn.2 b q (min p q)
          have hpos : (0 : ℚ) < 2 ^ min p q := by positivity
          rw [← units_mul a m (min_le_left p q), ← units_mul b n (min_le_right p q)] at hlt ⊢
          have hij := Int.cast_lt.1 ((mul_lt_mul_iff_left₀ hpos).1 hlt)
          rcases le_total p q with hle | hle
          · rw [min_eq_left hle] at hi hj hij ⊢
            have habs := natAbs_units_self a m p
            have hdigits : (units a m p p + 1).natAbs < 2 ^ 53 := by omega
            exact exists_inside (lt_add_one _) (by omega) hdigits hx.2
          · rw [min_eq_right hle] at hi hj hij ⊢
            have habs := natAbs_units_self b n q
            have hdigits : (units b n q q - 1).natAbs < 2 ^ 53 := by omega
            exact exists_inside (by omega) (sub_one_lt _) hdigits hy.2
      | infinite _ => exact hy.elim
      | notANumber => exact hy.elim
  | infinite _ => exact hx.elim
  | notANumber => exact hx.elim

/-- The nearest number has one value. -/
theorem IsNearest.unique (hx : x.IsNearest r) (hy : y.IsNearest r) : x.value = y.value := by
  have heq : |x.value - r| = |y.value - r| :=
    le_antisymm (hx.le y hy.inFormat) (hy.le x hx.inFormat)
  have hne {x y : Binary64} (hx : x.IsNearest r) (hy : y.IsNearest r)
      (heq : |x.value - r| = |y.value - r|) : ¬ x.value < y.value := by
    intro hlt
    obtain ⟨z, hz, hxz, hzy⟩ := exists_between hx.inFormat hy.inFormat hlt
      (hx.even y hy.inFormat hlt.ne' heq) (hy.even x hx.inFormat hlt.ne heq.symm)
    have hle := hx.le z hz
    rcases abs_cases (x.value - r) with ⟨h1, _⟩ | ⟨h1, _⟩ <;>
      rcases abs_cases (y.value - r) with ⟨h2, _⟩ | ⟨h2, _⟩ <;>
        rcases abs_cases (z.value - r) with ⟨h3, _⟩ | ⟨h3, _⟩ <;> linarith
  exact le_antisymm (not_lt.1 (hne hy hx heq.symm)) (not_lt.1 (hne hx hy heq))

/-! ## Reading a whole number -/

theorem overflow_le_pow : overflow ≤ 10 ^ 400 := by decide +kernel

/-- A whole number is read as it is rounded, or refused at once for its many digits. -/
theorem ofDecimal_whole (m : Nat) :
    ofDecimal false m 0 = ofRatio false m 1 ∨
      overflow ≤ m ∧ ofDecimal false m 0 = infinite false := by
  by_cases hm : m = 0
  · subst hm
    exact .inl rfl
  by_cases hlength : ((Nat.toDigits 10 m).length : Int) + 0 > 400
  · have hlong : 10 ^ 400 ≤ m := by
      by_contra hshort
      have := Nat.toDigits_length 10 m 400 (by decide) (not_le.1 hshort)
      omega
    refine .inr ⟨overflow_le_pow.trans hlong, ?_⟩
    simp only [ofDecimal, if_neg hm, if_pos hlength]
  · left
    have hshort : ¬ ((Nat.toDigits 10 m).length : Int) + 0 < -400 := by omega
    simp only [ofDecimal, if_neg hm, if_neg hlength, if_neg hshort]
    exact congrArg (ofRatio false · 1) (mul_one m)

/-- A whole number below the limit is read as the nearest number of the format. -/
theorem isNearest_ofDecimal (h : m < overflow) : (ofDecimal false m 0).IsNearest m := by
  have hone : (m / (1 : Nat) : ℚ) = m := by rw [Nat.cast_one, div_one]
  rcases ofDecimal_whole m with heq | ⟨hle, -⟩
  · have hnear := isNearest_ofRatio Nat.one_pos (hone.trans_lt (Nat.cast_lt.2 h))
    rwa [hone, ← heq] at hnear
  · exact absurd hle h.not_ge

/-- A whole number from the limit on is read as an infinity. -/
theorem ofDecimal_overflow (h : overflow ≤ m) : ofDecimal false m 0 = infinite false := by
  have hone : (m / (1 : Nat) : ℚ) = m := by rw [Nat.cast_one, div_one]
  rcases ofDecimal_whole m with heq | ⟨-, heq⟩
  · rw [heq, ofRatio_overflow Nat.one_pos ((Nat.cast_le.2 h).trans_eq hone.symm)]
  · exact heq

end UssdFlows.Binary64
