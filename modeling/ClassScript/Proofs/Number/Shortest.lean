import ClassScript.Proofs.Number.Bits
import ClassScript.Proofs.Number.Nearest

/-! # The shortest decimal of a double rounds to the double

The search for the shortest decimal goes down through the powers of ten.  A grid that is finer than half a unit
of the double has a neighbour of the double that rounds to it, and the search gets there: 26 grids are enough
for every double.  Whatever the search finds lies in the interval of the double.
-/

namespace ClassScript.Number

def Decimal.value (d : Decimal) : ℚ := d.digits * 10 ^ d.exponent

/-! ## Powers of ten against powers of two -/

theorem zpow_eq_pow_div_pow {x : ℚ} (e : ℤ) : x ^ e = x ^ e.toNat / x ^ (-e).toNat := by
  rcases Int.le_total 0 e with up | down
  · obtain ⟨k, rfl⟩ := Int.eq_ofNat_of_zero_le up
    simp
  · obtain ⟨k, is⟩ := Int.eq_ofNat_of_zero_le (show 0 ≤ -e by omega)
    obtain rfl : e = -(k : ℤ) := by omega
    simp

theorem crossFactors_spec (e q : ℤ) :
    0 < (crossFactors e q).1 ∧ 0 < (crossFactors e q).2 ∧
      ((crossFactors e q).1 : ℚ) * 2 ^ q = (crossFactors e q).2 * 10 ^ e := by
  refine ⟨by simp [crossFactors], by simp [crossFactors], ?_⟩
  rw [zpow_eq_pow_div_pow q, zpow_eq_pow_div_pow e]
  simp only [crossFactors, Nat.pow_eq, Nat.cast_mul, Nat.cast_pow, Nat.cast_ofNat]
  field_simp

/-- Comparing with the factors is comparing the numbers. -/
theorem crossFactors_compare (e q : ℤ) (x d : Nat) :
    (x * (crossFactors e q).2 ≤ d * (crossFactors e q).1 ↔ (x : ℚ) * 2 ^ q ≤ d * 10 ^ e) ∧
      (d * (crossFactors e q).1 ≤ x * (crossFactors e q).2 ↔ d * 10 ^ e ≤ (x : ℚ) * 2 ^ q) := by
  obtain ⟨_, bPositive, cross⟩ := crossFactors_spec e q
  generalize (crossFactors e q).1 = a at *
  generalize (crossFactors e q).2 = b at *
  have b' : (0 : ℚ) < b := by exact_mod_cast bPositive
  have power : (0 : ℚ) < 2 ^ q := by positivity
  have left : ((x * b : Nat) : ℚ) * 2 ^ q = x * 2 ^ q * b := by
    push_cast
    ring
  have right : ((d * a : Nat) : ℚ) * 2 ^ q = d * 10 ^ e * b := by
    rw [Nat.cast_mul, mul_assoc, cross]
    ring
  constructor
  · rw [← @Nat.cast_le ℚ, ← mul_le_mul_iff_of_pos_right power, left, right,
      mul_le_mul_iff_of_pos_right b']
  · rw [← @Nat.cast_le ℚ, ← mul_le_mul_iff_of_pos_right power, left, right,
      mul_le_mul_iff_of_pos_right b']

/-! ## Grids -/

namespace Interval

variable {i : Interval} {e : ℤ} {d : Nat}

/-- Whether a multiple of `10 ^ e` lies in the interval, in the terms of the search. -/
def inside (i : Interval) (e : ℤ) (d : Nat) : Bool :=
  if i.closed then
    i.low * (crossFactors e i.exponent).2 ≤ d * (crossFactors e i.exponent).1 &&
      d * (crossFactors e i.exponent).1 ≤ i.high * (crossFactors e i.exponent).2
  else
    i.low * (crossFactors e i.exponent).2 < d * (crossFactors e i.exponent).1 &&
      d * (crossFactors e i.exponent).1 < i.high * (crossFactors e i.exponent).2

/-- The multiple of `10 ^ e` below the double. -/
def below (i : Interval) (e : ℤ) : Nat :=
  i.value * (crossFactors e i.exponent).2 / (crossFactors e i.exponent).1

theorem holds_of_inside (isInside : i.inside e d = true) : i.Holds (d * 10 ^ e) := by
  obtain ⟨lowLe, lowGe⟩ := crossFactors_compare e i.exponent i.low d
  obtain ⟨highLe, highGe⟩ := crossFactors_compare e i.exponent i.high d
  rw [inside] at isInside
  split at isInside
  case isTrue closed =>
    simp only [Bool.and_eq_true, decide_eq_true_eq, lowLe, highGe] at isInside
    exact ⟨isInside.1, isInside.2, .inl closed⟩
  case isFalse =>
    simp only [Bool.and_eq_true, decide_eq_true_eq, ← not_le, lowGe, highLe] at isInside
    have low := not_le.1 isInside.1
    have high := not_le.1 isInside.2
    exact ⟨low.le, high.le, .inr ⟨low, high⟩⟩

theorem onGrid?_eq (i : Interval) (e : ℤ) : i.onGrid? e =
    match i.inside e (i.below e), i.inside e (i.below e + 1) with
    | true, true =>
      let a := (crossFactors e i.exponent).1
      let b := (crossFactors e i.exponent).2
      let down := i.value * b - i.below e * a
      let up := (i.below e + 1) * a - i.value * b
      some (if down < up || (down = up && i.below e % 2 = 0) then i.below e else i.below e + 1)
    | true, false => some (i.below e)
    | false, true => some (i.below e + 1)
    | false, false => none :=
  rfl

/-- A grid has something exactly if a neighbour of the double lies in the interval, and has such a neighbour. -/
theorem onGrid?_spec (i : Interval) (e : ℤ) :
    ((i.onGrid? e).isSome = true ↔ i.inside e (i.below e) = true ∨ i.inside e (i.below e + 1) = true) ∧
      ∀ d, i.onGrid? e = some d → i.inside e d = true := by
  rw [onGrid?_eq]
  cases isBelow : i.inside e (i.below e) <;> cases isAbove : i.inside e (i.below e + 1)
  case true.true =>
    refine ⟨by simp, fun d found => ?_⟩
    rw [← Option.some.inj found]
    split
    · exact isBelow
    · exact isAbove
  all_goals simp_all

/-- A grid that is finer than half a unit has something for the double. -/
theorem onGrid?_isSome (low : i.low ≤ i.value) (high : i.high = i.value + 2)
    (fine : (10 : ℚ) ^ e < 2 * 2 ^ i.exponent) : (i.onGrid? e).isSome = true := by
  refine (i.onGrid?_spec e).1.2 (.inr ?_)
  obtain ⟨aPositive, bPositive, cross⟩ := crossFactors_spec e i.exponent
  have small : (crossFactors e i.exponent).1 < 2 * (crossFactors e i.exponent).2 := by
    by_contra coarse
    have notFine := (crossFactors_compare e i.exponent 2 1).1.1 (by omega)
    push_cast at notFine
    linarith
  rw [inside, below, high]
  generalize (crossFactors e i.exponent).1 = a at *
  generalize (crossFactors e i.exponent).2 = b at *
  have division := Nat.div_add_mod (i.value * b) a
  have remainder := Nat.mod_lt (i.value * b) aPositive
  have lower : i.low * b ≤ i.value * b := Nat.mul_le_mul_right b low
  have upper : (i.value + 2) * b = i.value * b + 2 * b := by ring
  have next : (i.value * b / a + 1) * a = a * (i.value * b / a) + a := by ring
  rw [upper, next]
  split <;> simp <;> omega

/-- What the search finds lies in the interval, if the last grid has something. -/
theorem search_spec {fuel : Nat} (last : (i.onGrid? (e - fuel)).isSome = true) :
    i.Holds (i.search fuel e).value ∧ e - fuel ≤ (i.search fuel e).exponent ∧
      (i.search fuel e).exponent ≤ e := by
  induction fuel generalizing e with
  | zero =>
    rw [Nat.cast_zero, sub_zero] at last
    obtain ⟨d, found⟩ := Option.isSome_iff_exists.1 last
    have holds := holds_of_inside ((i.onGrid?_spec e).2 d found)
    simp only [search, found, Option.getD_some, Decimal.value]
    exact ⟨holds, by omega, le_rfl⟩
  | succ fuel ih =>
    rw [search]
    cases found : i.onGrid? e with
    | some d =>
      have holds := holds_of_inside ((i.onGrid?_spec e).2 d found)
      simp only [Decimal.value]
      exact ⟨holds, by omega, le_rfl⟩
    | none =>
      have same : e - (fuel + 1 : Nat) = e - 1 - fuel := by omega
      obtain ⟨holds, atLeast, atMost⟩ := ih (e := e - 1) (by rwa [← same])
      dsimp only
      exact ⟨holds, by omega, by omega⟩

end Interval

/-- Dropping zeros keeps the number. -/
theorem Decimal.strip_spec (fuel : Nat) (d : Decimal) :
    (d.strip fuel).value = d.value ∧ d.exponent ≤ (d.strip fuel).exponent ∧
      (d.strip fuel).exponent ≤ d.exponent + fuel := by
  induction fuel generalizing d with
  | zero => exact ⟨rfl, le_rfl, by simp [strip]⟩
  | succ fuel ih =>
    rw [strip]
    split
    case isTrue trailing =>
      simp only [Bool.and_eq_true, decide_eq_true_eq] at trailing
      obtain ⟨same, atLeast, atMost⟩ := ih ⟨d.digits / 10, d.exponent + 1⟩
      dsimp only at atLeast atMost
      refine ⟨same.trans ?_, by omega, by push_cast; omega⟩
      have digits : ((d.digits / 10 : Nat) : ℚ) * 10 = d.digits := by
        exact_mod_cast Nat.div_mul_cancel (Nat.dvd_of_mod_eq_zero trailing.2)
      rw [value, value, zpow_add_one₀ (by norm_num), ← digits]
      ring
    case isFalse => exact ⟨rfl, le_rfl, by omega⟩

/-! ## The shortest decimal -/

/-- Sixteen powers of two at a time, the last grid of the search is finer than the least of them. -/
theorem last_grid_table : ∀ j : Nat, j < 128 →
    (crossFactors ((16 * (j : ℤ) - 1006) * 30103 / 100000 - 23) (16 * (j : ℤ) - 1075)).1 <
      (crossFactors ((16 * (j : ℤ) - 1006) * 30103 / 100000 - 23) (16 * (j : ℤ) - 1075)).2 := by
  decide +kernel

theorem last_grid_fine {b : Binary} (normal : b.Normal) :
    (10 : ℚ) ^ (((Nat.log2 b.mantissa : ℤ) + 1 + b.exponent) * 30103 / 100000 + 2 - (25 : Nat)) <
      2 * 2 ^ (b.exponent - 2) := by
  have places : Nat.log2 b.mantissa < 53 := (Nat.log2_lt normal.positive.ne').2 normal.mantissa_lt
  have least := normal.least
  have most := normal.most
  obtain ⟨j, is⟩ := Int.eq_ofNat_of_zero_le (show 0 ≤ (b.exponent + 1074) / 16 by omega)
  have finer := last_grid_table j (by omega)
  have compared := (crossFactors_compare ((16 * (j : ℤ) - 1006) * 30103 / 100000 - 23)
    (16 * (j : ℤ) - 1075) 1 1).1
  rw [one_mul, one_mul, Nat.cast_one, one_mul, one_mul] at compared
  have twice : (2 : ℚ) * 2 ^ (b.exponent - 2) = 2 ^ (b.exponent - 1) := by
    rw [← zpow_one_add₀ two_ne_zero]
    congr 1
    omega
  calc (10 : ℚ) ^ (((Nat.log2 b.mantissa : ℤ) + 1 + b.exponent) * 30103 / 100000 + 2 - (25 : Nat))
      ≤ 10 ^ ((16 * (j : ℤ) - 1006) * 30103 / 100000 - 23) :=
        zpow_le_zpow_right₀ (by norm_num) (by omega)
    _ < 2 ^ (16 * (j : ℤ) - 1075) := not_le.1 fun coarse => absurd (compared.2 coarse) (by omega)
    _ ≤ 2 ^ (b.exponent - 1) := zpow_le_zpow_right₀ one_le_two (by omega)
    _ = 2 * 2 ^ (b.exponent - 2) := twice.symm

section Float

variable {x : Float}

theorem bits_ofFloat (x : Float) : (Binary.ofFloat x).bits = x.toBits.toNat % 2 ^ 63 := by
  have small := x.toBits.toNat_lt
  simp only [Binary.bits, Binary.ofFloat, Nat.pow_eq]
  split <;> omega

theorem normal_ofFloat (finite : Finite x) (nonzero : (Binary.ofFloat x).mantissa ≠ 0) :
    (Binary.ofFloat x).Normal := by
  rw [Finite] at finite
  have small := x.toBits.toNat_lt
  refine ⟨Nat.pos_of_ne_zero nonzero, ?_, ?_, ?_, ?_⟩ <;>
    · simp only [Binary.ofFloat, Nat.pow_eq]
      split <;> omega

/-- The shortest decimal of a double lies in the interval of the double. -/
theorem shortest_spec (finite : Finite x) (nonzero : (Binary.ofFloat x).mantissa ≠ 0) :
    (Interval.ofBinary (Binary.ofFloat x)).Holds (shortest x).value ∧
      -400 ≤ (shortest x).exponent ∧ (shortest x).exponent ≤ 400 := by
  have normal := normal_ofFloat finite nonzero
  simp only [shortest, if_neg nonzero]
  generalize Binary.ofFloat x = b at *
  have positive := normal.positive
  have places : Nat.log2 b.mantissa < 53 := (Nat.log2_lt positive.ne').2 normal.mantissa_lt
  have least := normal.least
  have most := normal.most
  have low : (Interval.ofBinary b).low ≤ (Interval.ofBinary b).value := by
    simp only [Interval.ofBinary]
    split <;> omega
  have last := Interval.onGrid?_isSome low rfl (last_grid_fine normal)
  obtain ⟨holds, atLeast, atMost⟩ := Interval.search_spec last
  obtain ⟨same, stripLeast, stripMost⟩ := Decimal.strip_spec 25
    ((Interval.ofBinary b).search 25 (((Nat.log2 b.mantissa : ℤ) + 1 + b.exponent) * 30103 / 100000 + 2))
  exact ⟨same ▸ holds, by omega, by omega⟩

/-- The shortest decimal of a double rounds to the double. -/
theorem nearestBits_shortest (finite : Finite x) (nonzero : (Binary.ofFloat x).mantissa ≠ 0)
    {num den : Nat} (numPositive : 0 < num) (denPositive : 0 < den)
    (is : (num : ℚ) / den = (shortest x).value) : nearestBits num den = x.toBits.toNat % 2 ^ 63 := by
  have normal := normal_ofFloat finite nonzero
  obtain ⟨holds, -⟩ := shortest_spec finite nonzero
  rw [← is] at holds
  rw [nearestBits_of_holds normal numPositive denPositive holds, bits_ofFloat]

/-- The shortest decimal has few digits. -/
theorem shortest_digits_lt (finite : Finite x) (nonzero : (Binary.ofFloat x).mantissa ≠ 0) :
    (shortest x).digits < 10 ^ 912 := by
  have normal := normal_ofFloat finite nonzero
  obtain ⟨holds, atLeast, -⟩ := shortest_spec finite nonzero
  have mantissa : ((Binary.ofFloat x).mantissa : ℚ) + 1 ≤ 2 ^ 53 := by exact_mod_cast normal.mantissa_lt
  have power : (2 : ℚ) ^ (Binary.ofFloat x).exponent ≤ 2 ^ (971 : ℤ) :=
    zpow_le_zpow_right₀ one_le_two normal.most
  have unit : (10 : ℚ) ^ (-400 : ℤ) ≤ 10 ^ (shortest x).exponent :=
    zpow_le_zpow_right₀ (by norm_num) atLeast
  have high := (holds_bounds normal holds).2.1
  rw [Decimal.value] at high
  have positive : (0 : ℚ) < 2 ^ (Binary.ofFloat x).exponent := by positivity
  have digits : (0 : ℚ) ≤ (shortest x).digits := Nat.cast_nonneg _
  -- A generous bound: the largest double in units of the finest grid.
  have most : ((shortest x).digits : ℚ) * 10 ^ (-400 : ℤ) < 10 ^ 512 :=
    calc ((shortest x).digits : ℚ) * 10 ^ (-400 : ℤ)
        ≤ (shortest x).digits * 10 ^ (shortest x).exponent := mul_le_mul_of_nonneg_left unit digits
      _ ≤ (((Binary.ofFloat x).mantissa : ℚ) + 1 / 2) * 2 ^ (Binary.ofFloat x).exponent := high
      _ ≤ 2 ^ 53 * 2 ^ (971 : ℤ) := mul_le_mul (by linarith) power positive.le (by positivity)
      _ = (2 ^ 2) ^ 512 := by rw [zpow_ofNat, ← pow_add, ← pow_mul]
      _ < 10 ^ 512 := pow_lt_pow_left₀ (by norm_num) (by norm_num) (by norm_num)
  rw [zpow_neg, ← div_eq_mul_inv, div_lt_iff₀ (by positivity), zpow_ofNat, ← pow_add] at most
  rw [← @Nat.cast_lt ℚ, Nat.cast_pow]
  exact most

end Float

end ClassScript.Number
