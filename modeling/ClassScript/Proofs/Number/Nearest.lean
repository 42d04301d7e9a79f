import ClassScript.Number.Shortest
import Mathlib.Algebra.Order.Field.Power
import Mathlib.Algebra.Order.Field.Rat
import Mathlib.Data.Nat.Cast.Order.Field
import Mathlib.Tactic.FieldSimp
import Mathlib.Tactic.Linarith
import Mathlib.Tactic.Positivity
import Mathlib.Tactic.Ring

/-! # The double nearest to a quotient

Every positive double has an interval of numbers that round to it: half a unit to either side, or a quarter of
one below a power of two, where the next double is half as far.  The bounds belong to it if its mantissa is
even.  `nearestBits` finds the bits of the double whose interval a quotient lies in.
-/

namespace ClassScript.Number

/-! ## Rounding -/

/-- A quotient within half a unit of a whole number is rounded to it, at the bounds if the number is even. -/
theorem roundHalfEven_eq {n d k : Nat} (positive : 0 < d) (low : 2 * k * d ≤ 2 * n + d)
    (high : 2 * n ≤ 2 * k * d + d) (ties : k % 2 = 0 ∨ 2 * k * d < 2 * n + d ∧ 2 * n < 2 * k * d + d) :
    roundHalfEven n d = k := by
  have division := Nat.div_add_mod n d
  have remainder := Nat.mod_lt n positive
  simp only [roundHalfEven]
  generalize n / d = whole at *
  generalize n % d = left at *
  subst division
  have atLeast : whole ≤ k := by
    by_contra less
    have : d * (k + 1) ≤ d * whole := Nat.mul_le_mul_left d (by omega)
    nlinarith
  have atMost : k ≤ whole + 1 := by
    by_contra more
    have : d * (whole + 2) ≤ d * k := Nat.mul_le_mul_left d (by omega)
    nlinarith
  -- So `k` is the whole part or one more, depending on the remainder.
  obtain rfl | rfl : k = whole ∨ k = whole + 1 := by omega
  · have product : 2 * k * d = 2 * (d * k) := by ring
    rw [product] at low high ties
    split
    · rfl
    · rw [if_pos (by simp; omega)]
  · have product : 2 * (whole + 1) * d = 2 * (d * whole) + 2 * d := by ring
    rw [product] at low high ties
    rw [if_neg (by omega), if_neg (by simp; omega)]

/-- The quotient over a power of two, as a number. -/
theorem scaled_spec (num : Nat) {den : Nat} (positive : 0 < den) (e : ℤ) :
    0 < (scaled num den e).2 ∧
      ((scaled num den e).1 : ℚ) / (scaled num den e).2 = (num : ℚ) / den / 2 ^ e := by
  rw [scaled]
  split
  case isTrue up =>
    obtain ⟨k, rfl⟩ := Int.eq_ofNat_of_zero_le up
    refine ⟨Nat.mul_pos positive (Nat.pow_pos (by decide)), ?_⟩
    simp only [Int.toNat_natCast, Nat.pow_eq, Nat.cast_mul, Nat.cast_pow, Nat.cast_ofNat, zpow_natCast]
    field_simp
  case isFalse down =>
    obtain ⟨k, is⟩ := Int.eq_ofNat_of_zero_le (show 0 ≤ -e by omega)
    obtain rfl : e = -(k : ℤ) := by omega
    refine ⟨positive, ?_⟩
    simp only [neg_neg, Int.toNat_natCast, Nat.pow_eq, Nat.cast_mul, Nat.cast_pow, Nat.cast_ofNat,
      zpow_neg, zpow_natCast]
    field_simp

/-- Rounding a quotient over a power of two. -/
theorem roundHalfEven_scaled {num den k : Nat} (positive : 0 < den) {e : ℤ}
    (low : ((k : ℚ) - 1 / 2) * 2 ^ e ≤ (num : ℚ) / den)
    (high : (num : ℚ) / den ≤ ((k : ℚ) + 1 / 2) * 2 ^ e)
    (ties : k % 2 = 0 ∨
      ((k : ℚ) - 1 / 2) * 2 ^ e < (num : ℚ) / den ∧ (num : ℚ) / den < ((k : ℚ) + 1 / 2) * 2 ^ e) :
    roundHalfEven (scaled num den e).1 (scaled num den e).2 = k := by
  obtain ⟨positive, is⟩ := scaled_spec num positive e
  generalize (scaled num den e).1 = n at *
  generalize (scaled num den e).2 = d at *
  have power : (0 : ℚ) < 2 ^ e := by positivity
  have dPositive : (0 : ℚ) < d := by exact_mod_cast positive
  rw [eq_div_iff power.ne'] at is
  simp only [← is, mul_le_mul_iff_of_pos_right power, mul_lt_mul_iff_of_pos_right power,
    le_div_iff₀ dPositive, div_le_iff₀ dPositive, lt_div_iff₀ dPositive, div_lt_iff₀ dPositive]
    at low high ties
  have low' : (2 * k * d : ℚ) ≤ 2 * n + d := by linarith
  have high' : (2 * n : ℚ) ≤ 2 * k * d + d := by linarith
  refine roundHalfEven_eq positive (by exact_mod_cast low') (by exact_mod_cast high') (ties.imp_right ?_)
  rintro ⟨above, below⟩
  have above' : (2 * k * d : ℚ) < 2 * n + d := by linarith
  have below' : (2 * n : ℚ) < 2 * k * d + d := by linarith
  exact ⟨by exact_mod_cast above', by exact_mod_cast below'⟩

/-! ## The exponent of a quotient -/

def leading (num den : Nat) : ℤ :=
  let guess : ℤ := (Nat.log2 num : ℤ) - (Nat.log2 den : ℤ) - 52
  if (scaled num den guess).1 / (scaled num den guess).2 < 2 ^ 52 then guess - 1 else guess

theorem nearestBits_eq (num den : Nat) :
    nearestBits num den =
      min ((max (leading num den) (-1074) + 1074).toNat * 2 ^ 52 +
        roundHalfEven (scaled num den (max (leading num den) (-1074))).1
          (scaled num den (max (leading num den) (-1074))).2) (2047 * 2 ^ 52) := rfl

/-- The leading digits of numerator and denominator tell a quotient but for a factor of two. -/
theorem quotient_near {num den : Nat} (numPositive : 0 < num) (denPositive : 0 < den) :
    (2 ^ 51 : ℚ) * 2 ^ ((Nat.log2 num : ℤ) - (Nat.log2 den : ℤ) - 52) < (num : ℚ) / den ∧
      (num : ℚ) / den < 2 ^ 53 * 2 ^ ((Nat.log2 num : ℤ) - (Nat.log2 den : ℤ) - 52) := by
  have numLow : (2 : ℚ) ^ Nat.log2 num ≤ num := by exact_mod_cast Nat.log2_self_le numPositive.ne'
  have numHigh : (num : ℚ) < 2 ^ Nat.log2 num * 2 := by exact_mod_cast Nat.lt_log2_self (n := num)
  have denLow : (2 : ℚ) ^ Nat.log2 den ≤ den := by exact_mod_cast Nat.log2_self_le denPositive.ne'
  have denHigh : (den : ℚ) < 2 ^ Nat.log2 den * 2 := by exact_mod_cast Nat.lt_log2_self (n := den)
  have denPos : (0 : ℚ) < den := by exact_mod_cast denPositive
  rw [zpow_sub₀ two_ne_zero, zpow_sub₀ two_ne_zero, zpow_natCast, zpow_natCast]
  have front : (0 : ℚ) < 2 ^ Nat.log2 num := by positivity
  have back : (0 : ℚ) < 2 ^ Nat.log2 den := by positivity
  -- With the powers as `a` and `b` both bounds are about products.
  generalize (2 : ℚ) ^ Nat.log2 num = a at *
  generalize (2 : ℚ) ^ Nat.log2 den = b at *
  have lowScale : (2 ^ 51 : ℚ) * (a / b / 2 ^ (52 : ℤ)) = a / (b * 2) := by
    field_simp
  have highScale : (2 ^ 53 : ℚ) * (a / b / 2 ^ (52 : ℤ)) = a * 2 / b := by
    field_simp
  rw [lowScale, highScale, div_lt_div_iff₀ (by positivity) denPos, div_lt_div_iff₀ denPos back]
  constructor <;> nlinarith

theorem leading_spec {num den : Nat} (numPositive : 0 < num) (denPositive : 0 < den) :
    (2 ^ 52 : ℚ) * 2 ^ leading num den ≤ (num : ℚ) / den ∧
      (num : ℚ) / den < 2 ^ 53 * 2 ^ leading num den := by
  obtain ⟨low, high⟩ := quotient_near numPositive denPositive
  simp only [leading]
  generalize (Nat.log2 num : ℤ) - (Nat.log2 den : ℤ) - 52 = guess at *
  obtain ⟨positive, is⟩ := scaled_spec num denPositive guess
  generalize (scaled num den guess).1 = n at *
  generalize (scaled num den guess).2 = d at *
  have power : (0 : ℚ) < 2 ^ guess := by positivity
  have dPositive : (0 : ℚ) < d := by exact_mod_cast positive
  rw [eq_div_iff power.ne'] at is
  -- The test in `leading`, as a bound on the quotient itself.
  have half : n / d < 2 ^ 52 ↔ (num : ℚ) / den < 2 ^ 52 * 2 ^ guess := by
    rw [Nat.div_lt_iff_lt_mul positive, ← is, mul_lt_mul_iff_of_pos_right power, div_lt_iff₀ dPositive]
    exact_mod_cast Iff.rfl
  split
  case isTrue less =>
    rw [half] at less
    rw [zpow_sub_one₀ two_ne_zero]
    constructor <;> linarith
  case isFalse notLess =>
    rw [half, not_lt] at notLess
    exact ⟨notLess, high⟩

/-! ## Intervals -/

structure Binary.Normal (b : Binary) : Prop where
  positive : 0 < b.mantissa
  mantissa_lt : b.mantissa < 2 ^ 53
  least : -1074 ≤ b.exponent
  most : b.exponent ≤ 971
  full : 2 ^ 52 ≤ b.mantissa ∨ b.exponent = -1074

def Binary.bits (b : Binary) : Nat := (b.exponent + 1074).toNat * 2 ^ 52 + b.mantissa

structure Interval.Holds (i : Interval) (r : ℚ) : Prop where
  low : i.low * 2 ^ i.exponent ≤ r
  high : r ≤ i.high * 2 ^ i.exponent
  inside : i.closed = true ∨ i.low * 2 ^ i.exponent < r ∧ r < i.high * 2 ^ i.exponent

section Holds

variable {b : Binary} {r : ℚ}

theorem Binary.Normal.bits_lt (normal : b.Normal) : b.bits < 2047 * 2 ^ 52 := by
  have small := normal.mantissa_lt
  have most := normal.most
  rw [bits]
  omega

/-- The interval of a double reaches half a unit down at most. -/
theorem low_ofBinary (normal : b.Normal) : (4 * b.mantissa - 2 : ℚ) ≤ (Interval.ofBinary b).low := by
  have positive := normal.positive
  simp only [Interval.ofBinary]
  split
  · rw [Nat.cast_sub (by omega)]
    push_cast
    linarith
  · rw [Nat.cast_sub (by omega)]
    push_cast
    linarith

theorem holds_bounds (normal : b.Normal) (holds : (Interval.ofBinary b).Holds r) :
    ((b.mantissa : ℚ) - 1 / 2) * 2 ^ b.exponent ≤ r ∧ r ≤ ((b.mantissa : ℚ) + 1 / 2) * 2 ^ b.exponent ∧
      (b.mantissa % 2 = 0 ∨ ((b.mantissa : ℚ) - 1 / 2) * 2 ^ b.exponent < r ∧
        r < ((b.mantissa : ℚ) + 1 / 2) * 2 ^ b.exponent) := by
  obtain ⟨low, high, inside⟩ := holds
  have reach := low_ofBinary normal
  have power : (0 : ℚ) < 2 ^ b.exponent := by positivity
  have quarter : (2 : ℚ) ^ (Interval.ofBinary b).exponent = 2 ^ b.exponent / 4 := by
    rw [show (Interval.ofBinary b).exponent = b.exponent - 2 from rfl, zpow_sub₀ two_ne_zero]
    norm_num
  have top : ((Interval.ofBinary b).high : ℚ) = 4 * b.mantissa + 2 := by
    simp [Interval.ofBinary]
  rw [quarter] at low high inside
  rw [top] at high inside
  -- Below a power of two the interval is shorter than this bound.
  have lowest : ((b.mantissa : ℚ) - 1 / 2) * 2 ^ b.exponent ≤
      (Interval.ofBinary b).low * (2 ^ b.exponent / 4) := by
    nlinarith
  refine ⟨lowest.trans low, by linarith, inside.imp (fun closed => ?_) fun ⟨above, below⟩ => ?_⟩
  · simpa [Interval.ofBinary] using closed
  · exact ⟨lowest.trans_lt above, by linarith⟩

theorem holds_pos (normal : b.Normal) (holds : (Interval.ofBinary b).Holds r) : 0 < r := by
  have power : (0 : ℚ) < 2 ^ b.exponent := by positivity
  have positive : (1 : ℚ) ≤ b.mantissa := by exact_mod_cast normal.positive
  have low := (holds_bounds normal holds).1
  nlinarith

/-- Just below a power of two, where doubles lie twice as dense. -/
theorem holds_below (normal : b.Normal) (holds : (Interval.ofBinary b).Holds r)
    (above : -1074 < b.exponent) (below : r < 2 ^ 52 * 2 ^ b.exponent) :
    b.mantissa = 2 ^ 52 ∧ ((2 : ℚ) ^ 52 - 1 / 4) * 2 ^ b.exponent ≤ r := by
  have power : (0 : ℚ) < 2 ^ b.exponent := by positivity
  have full : 2 ^ 52 ≤ b.mantissa := normal.full.resolve_right (by omega)
  have least : b.mantissa = 2 ^ 52 := by
    by_contra more
    have beyond : (2 ^ 52 + 1 : ℚ) ≤ b.mantissa := by exact_mod_cast (by omega : 2 ^ 52 + 1 ≤ b.mantissa)
    have bounds := (holds_bounds normal holds).1
    nlinarith
  have low := holds.low
  have lowIs : ((Interval.ofBinary b).low : ℚ) = 4 * 2 ^ 52 - 1 := by
    simp only [Interval.ofBinary, least, above]
    norm_num
  rw [lowIs, show (Interval.ofBinary b).exponent = b.exponent - 2 from rfl, zpow_sub₀ two_ne_zero] at low
  exact ⟨least, by norm_num at low ⊢; linarith⟩

/-- A quotient in the interval of a double rounds to the double. -/
theorem nearestBits_of_holds (normal : b.Normal) {num den : Nat} (numPositive : 0 < num)
    (denPositive : 0 < den) (holds : (Interval.ofBinary b).Holds ((num : ℚ) / den)) :
    nearestBits num den = b.bits := by
  obtain ⟨low, high, ties⟩ := holds_bounds normal holds
  obtain ⟨leadLow, leadHigh⟩ := leading_spec numPositive denPositive
  have power : (0 : ℚ) < 2 ^ b.exponent := by positivity
  have bitsLt := normal.bits_lt
  have least := normal.least
  -- The exponent of the quotient does not exceed that of the double.
  have atMost : leading num den ≤ b.exponent := by
    have small : (b.mantissa : ℚ) + 1 ≤ 2 ^ 53 := by exact_mod_cast normal.mantissa_lt
    have less : (2 : ℚ) ^ leading num den < 2 ^ (b.exponent + 1) := by
      rw [zpow_add_one₀ two_ne_zero]
      nlinarith
    have := (zpow_lt_zpow_iff_right₀ one_lt_two).1 less
    omega
  rw [nearestBits_eq]
  by_cases same : max (leading num den) (-1074) = b.exponent
  · rw [same, roundHalfEven_scaled denPositive low high ties]
    exact min_eq_left bitsLt.le
  · -- The double is a power of two and the quotient lies below it, where the exponent is one less. Rounding
    -- carries over into the exponent then.
    have below : leading num den < b.exponent ∧ -1074 < b.exponent := by omega
    have halfPower : (2 : ℚ) ^ (b.exponent - 1) = 2 ^ b.exponent / 2 := by
      rw [zpow_sub_one₀ two_ne_zero]
      ring
    have leadPower : (2 : ℚ) ^ leading num den ≤ 2 ^ (b.exponent - 1) :=
      zpow_le_zpow_right₀ one_le_two (by omega)
    obtain ⟨mantissa, near⟩ := holds_below normal holds below.2 (by nlinarith)
    have lead : leading num den = b.exponent - 1 := by
      have less : (2 : ℚ) ^ (b.exponent - 2) < 2 ^ leading num den := by
        rw [zpow_sub₀ two_ne_zero]
        norm_num
        nlinarith
      have := (zpow_lt_zpow_iff_right₀ one_lt_two).1 less
      omega
    have exponent : max (leading num den) (-1074) = b.exponent - 1 := by omega
    have rounded : roundHalfEven (scaled num den (b.exponent - 1)).1 (scaled num den (b.exponent - 1)).2 =
        2 ^ 53 := by
      refine roundHalfEven_scaled denPositive ?_ ?_ (.inl (by decide)) <;>
        · rw [halfPower]
          push_cast
          nlinarith
    rw [exponent, rounded]
    rw [Binary.bits, mantissa] at bitsLt ⊢
    omega

end Holds

end ClassScript.Number
