import ClassScript.Operation
import Mathlib.Data.Int.ModEq

/-! # Powers of integers

The base of an integer power is squared round after round and wraps at 64 bits each time, while the exponent loses its
binary digits.  A round keeps what is left to find (`Squaring.worth`) modulo `2 ^ 64` and takes a digit off the
exponent, which has at most 63 of them.  So the rounds come to an end (`Squaring.returns_run`), with the exact power
wrapped once (`powInteger_eq`).  Powers of one base then multiply by adding the exponents, as long as their sum does
not wrap into a negative number, for which the operator gives a double (`power_exact`).
-/

namespace ClassScript

namespace Number

/-! ## Integers modulo `2 ^ 64` -/

theorem toInt_mul_modEq (x y : Int64) : (x * y).toInt ≡ x.toInt * y.toInt [ZMOD 2 ^ 64] := by
  rw [Int64.toInt_mul]
  exact Int.bmod_emod

theorem eq_ofInt_of_modEq {x : Int64} {n : Int} (same : x.toInt ≡ n [ZMOD 2 ^ 64]) : x = Int64.ofInt n := by
  rw [eq_comm, Int64.ofInt_eq_iff_bmod_eq_toInt]
  calc n.bmod (2 ^ 64)
    _ = (n % 2 ^ 64).bmod (2 ^ 64) := (Int.emod_bmod n (2 ^ 64)).symm
    _ = (x.toInt % 2 ^ 64).bmod (2 ^ 64) := by rw [same.eq]
    _ = x.toInt.bmod (2 ^ 64) := Int.emod_bmod x.toInt (2 ^ 64)
    _ = x.toInt := x.toInt_bmod

/-- The last binary digit of an integer, a negative one included, says whether it is odd. -/
theorem and_one_eq_one_iff (x : Int64) : x &&& 1 = 1 ↔ x.toInt % 2 = 1 := by
  have digit : (x &&& 1).toBitVec.toNat = x.toBitVec.toNat % 2 := by
    rw [Int64.toBitVec_and, BitVec.toNat_and]
    exact Nat.and_one_is_mod _
  rw [← Int64.toBitVec_inj, ← BitVec.toNat_inj, digit, ← Int64.toInt_toBitVec, BitVec.toInt_eq_toNat_cond]
  show _ = 1 ↔ _
  split <;> omega

theorem nonneg_iff {x : Int64} : 0 ≤ x ↔ 0 ≤ x.toInt := Int64.le_iff_toInt_le

theorem pos_iff {x : Int64} : 0 < x ↔ 0 < x.toInt := Int64.lt_iff_toInt_lt

namespace Squaring

variable {s : Squaring}

/-! ## The rounds come to an end -/

/-- From `s`, there are `n` rounds to go, and the last one leaves the result `r`. -/
inductive Returns : Squaring → Nat → Int64 → Prop
  | done {s : Squaring} (spent : ¬ 0 < s.exponent) : Returns s 0 s.result
  | round {s : Squaring} {n : Nat} {r : Int64} (positive : 0 < s.exponent) (rest : Returns s.round n r) :
    Returns s (n + 1) r

theorem returns_run {n : Nat} (digits : s.exponent.toInt < 2 ^ n) : ∃ rounds ≤ n, Returns s rounds s.run := by
  -- On the digits that the exponent can still have, not on the exponent: this is what bounds the rounds.
  induction n generalizing s with
  | zero =>
    have spent : ¬ 0 < s.exponent := by
      rw [pos_iff]
      omega
    rw [run, if_neg spent]
    exact ⟨0, le_rfl, .done spent⟩
  | succ n ih =>
    rw [run]
    split
    case isTrue positive =>
      have fewer : s.round.exponent.toInt < 2 ^ n := by
        rw [toInt_exponent_round]
        omega
      obtain ⟨rounds, bound, returns⟩ := ih fewer
      exact ⟨rounds + 1, by omega, .round positive returns⟩
    case isFalse spent => exact ⟨0, by omega, .done spent⟩

/-! ## What a round keeps -/

/-- The number that a power in progress stands for, without any wrapping. -/
def worth (s : Squaring) : Int := s.result.toInt * s.base.toInt ^ s.exponent.toInt.toNat

theorem result_round_modEq (nonneg : 0 ≤ s.exponent) :
    s.round.result.toInt ≡ s.result.toInt * s.base.toInt ^ (s.exponent.toInt.toNat % 2) [ZMOD 2 ^ 64] := by
  have nonneg := nonneg_iff.1 nonneg
  unfold round
  split
  case isTrue odd =>
    have odd := (and_one_eq_one_iff _).1 odd
    rw [show s.exponent.toInt.toNat % 2 = 1 by omega, pow_one]
    exact toInt_mul_modEq ..
  case isFalse even =>
    have even := mt (and_one_eq_one_iff _).2 even
    rw [show s.exponent.toInt.toNat % 2 = 0 by omega, pow_zero, mul_one]

theorem worth_round (nonneg : 0 ≤ s.exponent) : s.round.worth ≡ s.worth [ZMOD 2 ^ 64] := by
  have halved : s.round.exponent.toInt.toNat = s.exponent.toInt.toNat / 2 := by
    rw [toInt_exponent_round]
    omega
  unfold worth
  rw [halved]
  generalize digits : s.exponent.toInt.toNat = n
  have result := result_round_modEq nonneg
  have square : s.round.base.toInt ≡ s.base.toInt ^ 2 [ZMOD 2 ^ 64] := by
    rw [sq]
    exact toInt_mul_modEq ..
  rw [digits] at result
  -- The digit taken off is `n % 2`, and the digits before it count the squares.
  calc s.round.result.toInt * s.round.base.toInt ^ (n / 2)
    _ ≡ s.result.toInt * s.base.toInt ^ (n % 2) * (s.base.toInt ^ 2) ^ (n / 2) [ZMOD 2 ^ 64] :=
      result.mul (square.pow _)
    _ = s.result.toInt * s.base.toInt ^ n := by
      rw [mul_assoc, ← pow_mul, ← pow_add, Nat.mod_add_div]

/-- Wrapping in every round is as good as wrapping once at the end. -/
theorem run_modEq (nonneg : 0 ≤ s.exponent) : s.run.toInt ≡ s.worth [ZMOD 2 ^ 64] := by
  fun_induction run s with
  | case1 s positive ih =>
    have still : 0 ≤ s.round.exponent := by
      rw [nonneg_iff, toInt_exponent_round]
      have nonneg := nonneg_iff.1 nonneg
      omega
    exact (ih still).trans (worth_round nonneg)
  | case2 s spent =>
    have zero : s.exponent.toInt.toNat = 0 := by
      rw [pos_iff] at spent
      omega
    rw [worth, zero, pow_zero, mul_one]

end Squaring

variable {exponent more : Int64}

theorem powInteger_modEq (base : Int64) (nonneg : 0 ≤ exponent) :
    (powInteger base exponent).toInt ≡ base.toInt ^ exponent.toInt.toNat [ZMOD 2 ^ 64] := by
  have run := Squaring.run_modEq (s := ⟨1, base, exponent⟩) nonneg
  rwa [Squaring.worth, Int64.toInt_one, one_mul] at run

theorem powInteger_eq (base : Int64) (nonneg : 0 ≤ exponent) :
    powInteger base exponent = Int64.ofInt (base.toInt ^ exponent.toInt.toNat) :=
  eq_ofInt_of_modEq (powInteger_modEq base nonneg)

/-! ## Sums of exponents -/

/-- A sum that does not fit comes out negative. -/
theorem nonneg_add_iff (nonneg : 0 ≤ exponent) (nonneg' : 0 ≤ more) :
    0 ≤ exponent + more ↔ exponent.toInt + more.toInt < 2 ^ 63 := by
  have below := exponent.toInt_lt
  have below' := more.toInt_lt
  rw [nonneg_iff] at nonneg nonneg'
  rw [nonneg_iff, Int64.toInt_add, Int.bmod_def]
  omega

theorem powInteger_add (base : Int64) (nonneg : 0 ≤ exponent) (nonneg' : 0 ≤ more) (nonnegSum : 0 ≤ exponent + more) :
    powInteger base (exponent + more) = powInteger base exponent * powInteger base more := by
  have fits := (nonneg_add_iff nonneg nonneg').1 nonnegSum
  have sum : (exponent + more).toInt.toNat = exponent.toInt.toNat + more.toInt.toNat := by
    rw [nonneg_iff] at nonneg nonneg'
    rw [Int64.toInt_add, Int.bmod_eq_of_le (by omega) (by omega), Int.toNat_add nonneg nonneg']
  rw [powInteger_eq base nonneg, powInteger_eq base nonneg', powInteger_eq base nonnegSum, sum, pow_add,
    Int64.ofInt_mul]

end Number

namespace Operation

open Number

variable {exponent : Int64}

theorem apply_pow_of_nonneg (base : Int64) (nonneg : 0 ≤ exponent) :
    apply .pow (.integer base) (.integer exponent) = .ok (.integer (powInteger base exponent)) := by
  simp only [apply, arithmetic, integers?, onIntegers?, if_pos nonneg]

/-- A negative exponent gives a double. -/
theorem apply_pow_of_neg (base : Int64) (negative : ¬ 0 ≤ exponent) :
    ∃ value, apply .pow (.integer base) (.integer exponent) = .ok (.double value) := by
  simp only [apply, arithmetic, integers?, onIntegers?, if_neg negative]
  exact ⟨_, rfl⟩

/-- The power of an integer to one that is not negative is found in at most 63 rounds and is the exact power, wrapped
    at 64 bits.  The power to the sum of two such exponents is the product of the powers, unless the sum wraps. -/
theorem power_exact (base exponent : Int64) (nonneg : 0 ≤ exponent) :
    (∃ rounds ≤ 63, Squaring.Returns ⟨1, base, exponent⟩ rounds (powInteger base exponent)) ∧
    (powInteger base exponent).toInt ≡ base.toInt ^ exponent.toInt.toNat [ZMOD 2 ^ 64] ∧
    apply .pow (.integer base) (.integer exponent)
      = .ok (.integer (Int64.ofInt (base.toInt ^ exponent.toInt.toNat))) ∧
    ∀ more : Int64, 0 ≤ more →
      ((do
          let sum ← apply .add (.integer exponent) (.integer more)
          apply .pow (.integer base) sum)
        = (do
          let left ← apply .pow (.integer base) (.integer exponent)
          let right ← apply .pow (.integer base) (.integer more)
          apply .mul left right) ↔
        exponent.toInt + more.toInt < 2 ^ 63) := by
  refine ⟨Squaring.returns_run exponent.toInt_lt, powInteger_modEq base nonneg, ?_, fun more nonneg' => ?_⟩
  · rw [apply_pow_of_nonneg base nonneg, powInteger_eq base nonneg]
  rw [apply_pow_of_nonneg base nonneg, apply_pow_of_nonneg base nonneg']
  -- Addition and multiplication of integers wrap and never fail, so the two sides come down to powers.
  show apply .pow (.integer base) (.integer (exponent + more))
    = .ok (.integer (powInteger base exponent * powInteger base more)) ↔ _
  rw [← nonneg_add_iff nonneg nonneg']
  constructor
  · intro same
    by_contra negative
    -- A sum that wrapped is a negative exponent: a double on the left, an integer on the right.
    obtain ⟨value, double⟩ := apply_pow_of_neg base negative
    cases double.symm.trans same
  · intro nonnegSum
    rw [apply_pow_of_nonneg base nonnegSum, powInteger_add base nonneg nonneg' nonnegSum]

/-- The 41st power of three has 65 binary digits, its 63rd has 100. -/
theorem power_exact_three :
    (0 : Int64) ≤ 41 ∧
      (∃ rounds ≤ 63, Squaring.Returns ⟨1, 3, 41⟩ rounds (powInteger 3 41)) ∧
      apply .pow (.integer 3) (.integer 41) = .ok (.integer (-420491770248316829)) ∧
      (do
          let sum ← apply .add (.integer 41) (.integer 22)
          apply .pow (.integer 3) sum)
        = (do
          let left ← apply .pow (.integer 3) (.integer 41)
          let right ← apply .pow (.integer 3) (.integer 22)
          apply .mul left right) := by
  obtain ⟨rounds, -, power, add⟩ := power_exact 3 41 (by decide)
  exact ⟨by decide, rounds, power, (add 22 (by decide)).2 (by decide)⟩

end Operation

end ClassScript
