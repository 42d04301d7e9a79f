import ClassScript.Number.Literal
import ClassScript.Proofs.Number.Bits
import Mathlib.Algebra.Order.Field.Power
import Mathlib.Algebra.Order.Field.Rat
import Mathlib.Tactic.FieldSimp
import Mathlib.Tactic.Positivity
import Mathlib.Tactic.Ring

/-! # What number literals write

Decimal digits are read as the number that they write.  A `Literal` is a number as programs write it: digits,
perhaps a point and more digits, perhaps an exponent.  It is read as the double nearest to its value.
-/

namespace ClassScript.Number

/-! ## Digits -/

def AllDigits (cs : List Char) : Prop := ∀ c ∈ cs, c.isDigit = true

theorem allDigits_toDigits (n : Nat) : AllDigits (Nat.toDigits 10 n) :=
  fun _ member => Nat.isDigit_of_mem_toDigits (by decide) (by decide) member

theorem allDigits_replicate (n : Nat) : AllDigits (List.replicate n '0') :=
  fun _ member => (List.mem_replicate.1 member).2 ▸ rfl

theorem AllDigits.append {cs ds : List Char} (first : AllDigits cs) (second : AllDigits ds) :
    AllDigits (cs ++ ds) := List.forall_mem_append.2 ⟨first, second⟩

theorem isDigit_eq (c : Char) : isDigit c = c.isDigit := by
  simp [isDigit, Char.isDigit, Char.le_def]

theorem toNat_of_isDigit {c : Char} (digit : c.isDigit = true) : 48 ≤ c.toNat ∧ c.toNat ≤ 57 := by
  simp only [Char.isDigit, Bool.and_eq_true, decide_eq_true_eq] at digit
  exact ⟨UInt32.le_iff_toNat_le.1 digit.1, UInt32.le_iff_toNat_le.1 digit.2⟩

theorem toLower_of_isDigit {c : Char} (digit : c.isDigit = true) : c.toLower = c := by
  have bounds := toNat_of_isDigit digit
  refine dif_neg fun upper => ?_
  have : 65 ≤ c.toNat := UInt32.le_iff_toNat_le.1 upper.1
  omega

theorem digit?_of_isDigit {c : Char} (digit : c.isDigit = true) : digit? 10 c = some (c.toNat - 48) := by
  have bounds := toNat_of_isDigit digit
  have isDigit : ('0' ≤ c && c ≤ '9') = true := (isDigit_eq c).trans digit
  simp only [digit?, isDigit, if_true]
  rw [if_pos (by omega)]

/-- Digits are read one by one into their value. -/
theorem readDigits_append {cs : List Char} (digits : AllDigits cs) (seen : Digits) (rest : List Char) :
    readDigits 10 seen (cs ++ rest) =
      readDigits 10
        { seen with
          value := Nat.ofDigitChars 10 cs seen.value
          places := seen.places + if seen.point then cs.length else 0
          anyDigit := seen.anyDigit || !cs.isEmpty } rest := by
  induction cs generalizing seen with
  | nil => simp
  | cons c cs ih =>
    obtain ⟨head, more⟩ := List.forall_mem_cons.1 digits
    have bounds := toNat_of_isDigit head
    have notUnderscore : c ≠ '_' := by
      rintro rfl
      cases head
    have notPoint : c ≠ '.' := by
      rintro rfl
      cases head
    rw [List.cons_append, readDigits, if_neg notUnderscore, if_neg (by simp [notPoint]),
      digit?_of_isDigit head]
    dsimp only
    rw [ih more, Nat.ofDigitChars_cons]
    cases seen.point with
    | false => simp
    | true => simp [← Nat.add_assoc, Nat.add_right_comm]

theorem le_ofDigitChars (cs : List Char) (n : Nat) : n ≤ Nat.ofDigitChars 10 cs n := by
  rw [Nat.ofDigitChars_eq_ofDigitChars_zero]
  have := Nat.le_mul_of_pos_left n (Nat.pow_pos (n := cs.length) (show 0 < 10 by decide))
  omega

/-- The digits of an exponent are read into their value, as long as it is below the largest that is kept. -/
theorem readExponent_digits {cs : List Char} (digits : AllDigits cs) {n : Nat}
    (small : Nat.ofDigitChars 10 cs n < 100000) : readExponent n cs = (Nat.ofDigitChars 10 cs n, []) := by
  induction cs generalizing n with
  | nil => rfl
  | cons c cs ih =>
    obtain ⟨head, more⟩ := List.forall_mem_cons.1 digits
    rw [Nat.ofDigitChars_cons] at small ⊢
    have prefixSmall := le_ofDigitChars cs (10 * n + (c.toNat - '0'.toNat))
    have notUnderscore : c ≠ '_' := by
      rintro rfl
      cases head
    rw [readExponent, if_neg notUnderscore, if_pos ((isDigit_eq c).trans head), if_pos (by omega)]
    exact ih more small

/-! ## Integers -/

theorem all_isDigit {cs : List Char} (digits : AllDigits cs) : cs.all isDigit = true :=
  List.all_eq_true.2 fun c member => (isDigit_eq c).trans (digits c member)

/-- A number that begins with a digit or a point has no sign. -/
theorem sign_of_unsigned {c : Char} {rest : List Char} (notMinus : c ≠ '-') (notPlus : c ≠ '+') :
    sign (c :: rest) = (false, c :: rest) := by
  rw [sign.eq_def]
  split
  case h_1 is => exact absurd (List.cons.inj is).1 notMinus
  case h_2 is => exact absurd (List.cons.inj is).1 notPlus
  case h_3 => rfl

theorem sign_of_isDigit {c : Char} {rest : List Char} (digit : c.isDigit = true) :
    sign (c :: rest) = (false, c :: rest) := by
  apply sign_of_unsigned <;>
    · rintro rfl
      cases digit

/-- A number that 64 bits hold is read back from its digits. -/
theorem readInteger_toString {n : Nat} (small : n < 2 ^ 63) :
    readInteger (toString n) = (Int64.ofInt n, true) := by
  have digits := allDigits_toDigits n
  have signless : sign (toString n).toList = (false, Nat.toDigits 10 n) := by
    rw [Nat.toString_eq_repr, Nat.toList_repr]
    cases is : Nat.toDigits 10 n with
    | nil => exact absurd is Nat.toDigits_ne_nil
    | cons c rest => exact sign_of_isDigit (digits c (by simp [is]))
  have taken : (Nat.toDigits 10 n).takeWhile isDigit = Nat.toDigits 10 n := by
    have all : (Nat.toDigits 10 n ++ []).takeWhile isDigit = _ :=
      List.takeWhile_append_of_pos (List.all_eq_true.1 (all_isDigit digits))
    simpa using all
  have value : decimalValue (Nat.toDigits 10 n) = n := Nat.ofDigitChars_ten_toDigits
  have notEmpty : (Nat.toDigits 10 n).isEmpty = false := by simp
  simp only [readInteger, signless, taken, value, all_isDigit digits, notEmpty]
  rw [if_neg (by simp), if_neg (by simp), if_pos (show n < Nat.pow 2 63 from small)]

/-! ## Doubles -/

structure Literal where
  whole : List Char
  fraction : List Char
  /-- Whether the exponent is negative, and its digits. -/
  exponent : Option (Bool × List Char)

namespace Literal

def exponentChars : Option (Bool × List Char) → List Char
  | none => []
  | some (minus, digits) => 'e' :: (if minus then '-' else '+') :: digits

def power : Option (Bool × List Char) → ℤ
  | none => 0
  | some (minus, digits) =>
    if minus then -(Nat.ofDigitChars 10 digits 0 : ℤ) else Nat.ofDigitChars 10 digits 0

/-- The characters of a number; without a fraction there is no point. -/
def chars (l : Literal) : List Char :=
  l.whole ++ (if l.fraction.isEmpty then [] else '.' :: l.fraction) ++ exponentChars l.exponent

def value (l : Literal) : ℚ :=
  Nat.ofDigitChars 10 (l.whole ++ l.fraction) 0 * 10 ^ (power l.exponent - l.fraction.length)

/-- The parts of a literal are made of digits, and its exponent is one that doubles may have. -/
structure Valid (l : Literal) : Prop where
  whole : AllDigits l.whole
  nonempty : l.whole ≠ []
  fraction : AllDigits l.fraction
  exponent : ∀ minus digits, l.exponent = some (minus, digits) →
    AllDigits digits ∧ digits ≠ [] ∧ Nat.ofDigitChars 10 digits 0 < 100000

variable {l : Literal}

/-- The digits of a literal are read up to its exponent. -/
theorem readDigits_chars (valid : l.Valid) :
    ∃ digits : Digits, readDigits 10 {} l.chars = (digits, exponentChars l.exponent) ∧
      digits.value = Nat.ofDigitChars 10 (l.whole ++ l.fraction) 0 ∧
      digits.places = l.fraction.length ∧ digits.anyDigit = true := by
  have stop (seen : Digits) :
      readDigits 10 seen (exponentChars l.exponent) = (seen, exponentChars l.exponent) := by
    cases l.exponent with
    | none => rfl
    | some exponent => rfl
  rw [chars, List.append_assoc, readDigits_append valid.whole]
  cases fraction : l.fraction with
  | nil => exact ⟨_, stop _, by simp, by simp, by simp [valid.nonempty]⟩
  | cons c rest =>
    have digits : AllDigits (c :: rest) := fraction ▸ valid.fraction
    have pointed : (if (c :: rest).isEmpty then [] else '.' :: c :: rest) = '.' :: c :: rest := rfl
    rw [pointed, List.cons_append, readDigits, if_neg (by decide), if_pos (by rfl),
      readDigits_append digits, stop]
    exact ⟨_, rfl, (Nat.ofDigitChars_append 0).symm, by simp, by simp⟩

/-- A literal writes the double nearest to its digits and its exponent. -/
theorem readMagnitude?_chars (valid : l.Valid) :
    readMagnitude? false 10 l.chars =
      some (nearestScaled false (Nat.ofDigitChars 10 (l.whole ++ l.fraction) 0) 10
        (power l.exponent - l.fraction.length)) := by
  obtain ⟨digits, read, value, places, anyDigit⟩ := readDigits_chars valid
  simp only [readMagnitude?, read, value, places, anyDigit]
  cases exponent : l.exponent with
  | none => rfl
  | some pair =>
    obtain ⟨minus, ds⟩ := pair
    obtain ⟨allDigits, nonempty, small⟩ := valid.exponent minus ds exponent
    obtain ⟨d, more, rfl⟩ := List.exists_cons_of_ne_nil nonempty
    have digit : isDigit d = true := (isDigit_eq d).trans (allDigits d List.mem_cons_self)
    have signs : sign ((if minus then '-' else '+') :: d :: more) = (minus, d :: more) := by
      cases minus <;> rfl
    simp only [exponentChars, signs, readExponent_digits allDigits small, digit, power]
    rfl

end Literal

/-- A whole number times a power of ten as a quotient. -/
theorem nearestScaled_ten (n : Nat) (e : ℤ) :
    ∃ num den : Nat, 0 < den ∧ (num : ℚ) / den = n * 10 ^ e ∧
      nearestScaled false n 10 e = nearest false num den := by
  rw [nearestScaled]
  split
  case isTrue up =>
    obtain ⟨k, rfl⟩ := Int.eq_ofNat_of_zero_le up
    exact ⟨_, 1, one_pos, by simp, rfl⟩
  case isFalse down =>
    obtain ⟨k, is⟩ := Int.eq_ofNat_of_zero_le (show 0 ≤ -e by omega)
    obtain rfl : e = -(k : ℤ) := by omega
    refine ⟨n, _, Nat.pow_pos (show 0 < 10 by decide), ?_, rfl⟩
    simp [div_eq_mul_inv]

namespace Literal

variable {l : Literal}

/-- Numbers have no underscores and no base. -/
theorem plain_of_mem_chars (valid : l.Valid) {c : Char} (member : c ∈ l.chars) :
    c.toLower ≠ 'x' ∧ c ≠ '_' := by
  have ofDigit {c : Char} (digit : c.isDigit = true) : c.toLower ≠ 'x' ∧ c ≠ '_' := by
    rw [toLower_of_isDigit digit]
    constructor <;>
      · rintro rfl
        cases digit
  rw [chars, List.mem_append, List.mem_append] at member
  rcases member with (whole | fraction) | exponent
  · exact ofDigit (valid.whole c whole)
  · split at fraction
    · cases fraction
    · rcases List.mem_cons.1 fraction with rfl | digit
      · decide
      · exact ofDigit (valid.fraction c digit)
  · cases is : l.exponent with
    | none => simp [is, exponentChars] at exponent
    | some pair =>
      obtain ⟨minus, digits⟩ := pair
      rw [is, exponentChars, List.mem_cons, List.mem_cons] at exponent
      rcases exponent with rfl | rfl | digit
      · decide
      · cases minus <;> decide
      · exact ofDigit ((valid.exponent minus digits is).1 c digit)

end Literal

def BeginsNumber (c : Char) : Prop := c.isDigit = true ∨ c = '.'

section Begins

variable {c : Char} {rest : List Char} (begins : BeginsNumber c)

include begins

theorem sign_of_beginsNumber : sign (c :: rest) = (false, c :: rest) := by
  rcases begins with digit | rfl
  · exact sign_of_isDigit digit
  · rfl

/-- What begins like a number is no word. -/
theorem not_spells {word : String} {first : Char} {more : List Char} (letters : word.toList = first :: more)
    (letter : first.isDigit = false ∧ first ≠ '.') : spells (c :: rest) word = false := by
  refine decide_eq_false fun same => ?_
  rw [letters, List.map_cons] at same
  have head := (List.cons.inj same).1
  rcases begins with digit | rfl
  · rw [toLower_of_isDigit digit] at head
    rw [head, letter.1] at digit
    cases digit
  · exact letter.2 head.symm

/-- Without a sign and without letters in front, only the digits and the exponent are left to read. -/
theorem readDouble_of_beginsNumber {text : String} (is : text.toList = c :: rest) :
    readDouble text =
      (readMagnitude? false (base (c :: rest)).1 (base (c :: rest)).2.1).elim (0, false) fun x =>
        if (c :: rest).contains '_' &&
          !underscoresBetween (base (c :: rest)).1 (base (c :: rest)).2.2 (base (c :: rest)).2.1
        then (0, false) else (x, !x.isInf) := by
  have notInf : spells (c :: rest) "inf" = false := not_spells begins rfl (by decide)
  have notInfinity : spells (c :: rest) "infinity" = false := not_spells begins rfl (by decide)
  have notNaN : spells (c :: rest) "nan" = false := not_spells begins rfl (by decide)
  simp only [readDouble, is, sign_of_beginsNumber begins, notInf, notInfinity, notNaN, Bool.or_self,
    Bool.false_eq_true, if_false]
  cases readMagnitude? false (base (c :: rest)).1 (base (c :: rest)).2.1 <;> rfl

end Begins

/-- A number that begins with a digit and is in base ten is read as such. -/
theorem readDouble_of_plain {d : Char} {more : List Char} (digit : d.isDigit = true)
    (plain : ∀ c ∈ d :: more, c.toLower ≠ 'x' ∧ c ≠ '_') {x : Float}
    (read : readMagnitude? false 10 (d :: more) = some x) :
    readDouble (String.ofList (d :: more)) = (x, !x.isInf) := by
  have noUnderscore : (d :: more).contains '_' = false := by
    simpa using fun member => (plain '_' member).2 rfl
  have isTen : base (d :: more) = (10, d :: more, .nothing) := by
    rw [base.eq_def]
    split
    case h_1 x e rest is =>
      have notBase : x.toLower ≠ 'x' := (plain x (by simp [is])).1
      rw [if_neg notBase, is]
    case h_2 => rfl
  rw [readDouble_of_beginsNumber (.inl digit) String.toList_ofList, isTen, read, noUnderscore]
  rfl

namespace Literal

variable {l : Literal}

/-- What is written as a number is read as the nearest double. -/
theorem readDouble_chars (valid : l.Valid) :
    ∃ num den : Nat, 0 < den ∧ (num : ℚ) / den = l.value ∧
      readDouble (String.ofList l.chars) = (nearest false num den, !(nearest false num den).isInf) := by
  obtain ⟨num, den, positive, is, same⟩ := nearestScaled_ten
    (Nat.ofDigitChars 10 (l.whole ++ l.fraction) 0) (power l.exponent - l.fraction.length)
  refine ⟨num, den, positive, is, ?_⟩
  have read := readMagnitude?_chars valid
  have plain := fun c => plain_of_mem_chars valid (c := c)
  obtain ⟨d, more, whole⟩ := List.exists_cons_of_ne_nil valid.nonempty
  have digit : d.isDigit = true := valid.whole d (by simp [whole])
  rw [same] at read
  rw [chars, whole, List.cons_append, List.cons_append] at read plain ⊢
  exact readDouble_of_plain digit plain read

end Literal

/-! ## Numbers of a source -/

theorem finite_nearest {negative : Bool} {num den : Nat}
    (inRange : (nearest negative num den).isInf = false) : Finite (nearest negative num den) := by
  have most : (if num = 0 then 0 else nearestBits num den) ≤ 2047 * 2 ^ 52 := by
    split
    · exact Nat.zero_le _
    · exact Nat.min_le_right _ _
  refine finite_ofBits ?_ inRange
  generalize (if num = 0 then 0 else nearestBits num den) = size at most
  rw [UInt64.toNat_ofNat']
  cases negative with
  | false =>
    rw [if_neg Bool.false_ne_true]
    omega
  | true =>
    rw [if_pos rfl, show Nat.pow 2 63 = 2 ^ 63 from rfl]
    omega

/-- What is read as digits and an exponent is the double nearest to some quotient. -/
theorem exists_nearest {negative : Bool} {radix : Nat} {text : List Char} {x : Float}
    (read : readMagnitude? negative radix text = some x) : ∃ num den, x = nearest negative num den := by
  have scaled (mantissa radix : Nat) (e : ℤ) :
      ∃ num den, nearestScaled negative mantissa radix e = nearest negative num den := by
    rw [nearestScaled]
    split
    · exact ⟨_, _, rfl⟩
    · exact ⟨_, _, rfl⟩
  simp only [readMagnitude?] at read
  split at read
  case h_1 =>
    split at read
    · cases read
    split at read <;>
      · obtain ⟨num, den, is⟩ := scaled _ _ _
        exact ⟨num, den, (Option.some.inj read).symm.trans is⟩
  case h_2 => cases read

section Unsigned

variable {c : Char} {rest : List Char} {text : String} (begins : BeginsNumber c)
  (is : text.toList = c :: rest)

include begins is

/-- An integer without a sign is not the least one. -/
theorem readInteger_ne_minValue (read : (readInteger text).2 = true) :
    (readInteger text).1 ≠ Int64.minValue := by
  simp only [readInteger, is, sign_of_beginsNumber begins, Bool.false_eq_true, if_false] at read ⊢
  revert read
  generalize decimalValue _ = size
  split
  · exact nofun
  · split
    case isTrue small =>
      have small : size < 2 ^ 63 := small
      intro _ same
      have toInt := congrArg Int64.toInt same
      rw [Int64.toInt_ofInt_of_le (by omega) (by omega), Int64.toInt_minValue] at toInt
      omega
    case isFalse => exact nofun

/-- A double without a sign is malformed, and then zero, or the double nearest to some quotient. -/
theorem readDouble_cases :
    readDouble text = (0, false) ∨
      ∃ num den, readDouble text = (nearest false num den, !(nearest false num den).isInf) := by
  rw [readDouble_of_beginsNumber begins is]
  cases magnitude : readMagnitude? false (base (c :: rest)).1 (base (c :: rest)).2.1 with
  | none => exact .inl rfl
  | some x =>
    rw [Option.elim_some]
    split
    · exact .inl rfl
    · obtain ⟨num, den, rfl⟩ := exists_nearest magnitude
      exact .inr ⟨num, den, rfl⟩

/-- A double without a sign that is read is finite. -/
theorem finite_readDouble (read : (readDouble text).2 = true) : Finite (readDouble text).1 := by
  rcases readDouble_cases begins is with malformed | ⟨num, den, rounded⟩
  · rw [malformed] at read
    cases read
  · rw [rounded] at read ⊢
    exact finite_nearest (by simpa using read)

/-- A double without a sign is read as a finite double or, if it is out of range, as an infinite one. -/
theorem finite_or_isInf_readDouble : Finite (readDouble text).1 ∨ (readDouble text).1.isInf = true := by
  rcases readDouble_cases begins is with malformed | ⟨num, den, rounded⟩
  · rw [malformed, Finite]
    exact .inl (by decide)
  · rw [rounded]
    cases inRange : (nearest false num den).isInf with
    | true => exact .inr rfl
    | false => exact .inl (finite_nearest inRange)

end Unsigned

end ClassScript.Number
