import ClassScript.Number.Layout
import ClassScript.Proofs.Number.Literal
import ClassScript.Proofs.Number.Shortest

/-! # The text of a double is read back as the double

Both ways to write a decimal, in full and with an exponent, are literals whose value is that of the decimal, and
both have a fraction or an exponent, which integers do not have.  The decimal of a double rounds to the double, so
the text of a finite double without a sign is read back as that double, to the bit.
-/

namespace ClassScript.Number

/-! ## Decimals as literals -/

def fixed (d : Decimal) : String :=
  if (positional d).toList.contains '.' then positional d else positional d ++ ".0"

theorem length_toDigits_le {n k : Nat} (positive : 0 < k) (small : n < 10 ^ k) :
    (Nat.toDigits 10 n).length ≤ k :=
  (Nat.length_toDigits_le_iff (by decide) positive).2 small

theorem not_mem_of_allDigits {cs : List Char} (digits : AllDigits cs) : '.' ∉ cs :=
  fun member => nomatch digits '.' member

def Literal.ShowsDouble (l : Literal) : Prop := l.fraction ≠ [] ∨ l.exponent.isSome

abbrev Decimal.chars (d : Decimal) : List Char := Nat.toDigits 10 d.digits

variable (d : Decimal)

theorem positional_whole (up : 0 ≤ d.exponent) :
    positional d =
      String.ofList (d.chars ++ if d.digits = 0 then [] else List.replicate d.exponent.toNat '0') := by
  simp only [positional, zeros, if_pos up, Nat.toString_eq_ofList_toDigits, String.ofList_append]
  split <;> rfl

theorem positional_fraction (down : ¬ 0 ≤ d.exponent) (few : d.chars.length ≤ (-d.exponent).toNat) :
    positional d = String.ofList
      ('0' :: '.' :: (List.replicate ((-d.exponent).toNat - d.chars.length) '0' ++ d.chars)) := by
  simp only [positional, zeros, if_neg down, Nat.toString_eq_ofList_toDigits, String.length_ofList, if_pos few]
  rw [← String.ofList_append, ← String.ofList_append]
  rfl

theorem positional_mixed (down : ¬ 0 ≤ d.exponent) (many : ¬ d.chars.length ≤ (-d.exponent).toNat) :
    positional d = String.ofList
      (d.chars.take (d.chars.length - (-d.exponent).toNat) ++
        '.' :: d.chars.drop (d.chars.length - (-d.exponent).toNat)) := by
  simp only [positional, if_neg down, Nat.toString_eq_ofList_toDigits, String.length_ofList, if_neg many,
    String.toList_ofList]
  rw [← String.ofList_append, ← String.ofList_append, List.append_assoc]
  rfl

/-- A whole number gets a point and a zero. -/
theorem fixed_whole (up : 0 ≤ d.exponent) :
    ∃ l : Literal, l.Valid ∧ l.ShowsDouble ∧ l.value = d.value ∧ fixed d = String.ofList l.chars := by
  have digits := allDigits_toDigits d.digits
  -- Zero is written without the zeros of its exponent.
  have zeros : AllDigits (if d.digits = 0 then [] else List.replicate d.exponent.toNat '0') := by
    split
    · exact nofun
    · exact allDigits_replicate _
  have whole := digits.append zeros
  refine ⟨⟨_, ['0'], none⟩, ⟨whole, by simp, allDigits_replicate 1, nofun⟩, .inl (by simp), ?_, ?_⟩
  · obtain ⟨k, is⟩ := Int.eq_ofNat_of_zero_le up
    have read : Nat.ofDigitChars 10 (d.chars ++ (if d.digits = 0 then []
        else List.replicate d.exponent.toNat '0') ++ ['0']) 0 = d.digits * 10 ^ k * 10 := by
      rw [Nat.ofDigitChars_append, Nat.ofDigitChars_append, Nat.ofDigitChars_ten_toDigits]
      split
      case isTrue zero => simp [zero, Nat.ofDigitChars_cons]
      case isFalse =>
        simp [is, Nat.ofDigitChars_cons]
        ring
    show (Nat.ofDigitChars 10 (d.chars ++ _ ++ ['0']) 0 : ℚ) * 10 ^ ((0 : ℤ) - (1 : Nat)) =
      d.digits * 10 ^ d.exponent
    rw [read, is, zpow_natCast, zero_sub, zpow_neg, Nat.cast_one, zpow_one]
    push_cast
    field_simp
  · rw [fixed, positional_whole d up, String.toList_ofList,
      if_neg (by simpa using not_mem_of_allDigits whole), ← String.ofList_append]
    simp [Literal.chars, Literal.exponentChars]

theorem power_of_places (down : ¬ 0 ≤ d.exponent) : 0 - ((-d.exponent).toNat : ℤ) = d.exponent := by
  omega

/-- A number below one begins with a zero. -/
theorem fixed_fraction (down : ¬ 0 ≤ d.exponent) (few : d.chars.length ≤ (-d.exponent).toNat) :
    ∃ l : Literal, l.Valid ∧ l.ShowsDouble ∧ l.value = d.value ∧ fixed d = String.ofList l.chars := by
  refine ⟨⟨['0'], List.replicate ((-d.exponent).toNat - d.chars.length) '0' ++ d.chars, none⟩,
    ⟨allDigits_replicate 1, by simp, (allDigits_replicate _).append (allDigits_toDigits d.digits), nofun⟩,
    .inl (by simp), ?_, ?_⟩
  · have places : (List.replicate ((-d.exponent).toNat - d.chars.length) '0' ++ d.chars).length =
        (-d.exponent).toNat := by
      simp only [List.length_append, List.length_replicate]
      omega
    have read : Nat.ofDigitChars 10 (['0'] ++
        (List.replicate ((-d.exponent).toNat - d.chars.length) '0' ++ d.chars)) 0 = d.digits := by
      rw [Nat.ofDigitChars_append, Nat.ofDigitChars_append]
      simp [Nat.ofDigitChars_cons]
    rw [Literal.value, read, places, Decimal.value, Literal.power, power_of_places d down]
  · rw [fixed, positional_fraction d down few, if_pos (by simp)]
    simp [Literal.chars, Literal.exponentChars]

/-- The point stands among the digits. -/
theorem fixed_mixed (down : ¬ 0 ≤ d.exponent) (many : ¬ d.chars.length ≤ (-d.exponent).toNat) :
    ∃ l : Literal, l.Valid ∧ l.ShowsDouble ∧ l.value = d.value ∧ fixed d = String.ofList l.chars := by
  have digits := allDigits_toDigits d.digits
  have places : (d.chars.drop (d.chars.length - (-d.exponent).toNat)).length = (-d.exponent).toNat := by
    rw [List.length_drop]
    omega
  refine ⟨⟨d.chars.take (d.chars.length - (-d.exponent).toNat),
    d.chars.drop (d.chars.length - (-d.exponent).toNat), none⟩, ⟨?_, ?_, ?_, nofun⟩, .inl ?_, ?_, ?_⟩
  · exact fun c member => digits c (List.mem_of_mem_take member)
  · simp
    omega
  · exact fun c member => digits c (List.mem_of_mem_drop member)
  · rw [← List.length_pos_iff, places]
    omega
  · rw [Literal.value, List.take_append_drop, Nat.ofDigitChars_ten_toDigits, places, Decimal.value,
      Literal.power, power_of_places d down]
  · have fraction : (d.chars.drop (d.chars.length - (-d.exponent).toNat)).isEmpty = false := by
      rw [List.isEmpty_eq_false_iff, ← List.length_pos_iff]
      omega
    rw [fixed, positional_mixed d down many, if_pos (by simp)]
    simp [Literal.chars, Literal.exponentChars, fraction]

/-- A decimal that is written out in full is a literal with its value. -/
theorem fixed_literal : ∃ l : Literal, l.Valid ∧ l.ShowsDouble ∧ l.value = d.value ∧ fixed d = String.ofList l.chars := by
  by_cases up : 0 ≤ d.exponent
  · exact fixed_whole d up
  · by_cases few : d.chars.length ≤ (-d.exponent).toNat
    · exact fixed_fraction d up few
    · exact fixed_mixed d up few

/-- A decimal with an exponent is a literal with its value. -/
theorem scientific_literal (exponentDigits : Nat)
    (small : (d.exponent + d.chars.length - 1).natAbs < 100000) :
    ∃ l : Literal, l.Valid ∧ l.ShowsDouble ∧ l.value = d.value ∧
      scientific d exponentDigits = String.ofList l.chars := by
  have digits := allDigits_toDigits d.digits
  have nonempty : 0 < d.chars.length := Nat.length_toDigits_pos
  generalize power : d.exponent + d.chars.length - 1 = exponent at small
  have read : Nat.ofDigitChars 10 (List.replicate (exponentDigits - (toString exponent.natAbs).length) '0' ++
      Nat.toDigits 10 exponent.natAbs) 0 = exponent.natAbs := by
    rw [Nat.ofDigitChars_append, Nat.ofDigitChars_replicate_zero, Nat.mul_zero,
      Nat.ofDigitChars_ten_toDigits]
  -- One digit stands before the point, so the exponent counts all the others.
  refine ⟨⟨d.chars.take 1, d.chars.drop 1, some (exponent < 0,
    List.replicate (exponentDigits - (toString exponent.natAbs).length) '0' ++
      Nat.toDigits 10 exponent.natAbs)⟩, ⟨?_, ?_, ?_, ?_⟩, .inr rfl, ?_, ?_⟩
  · exact fun c member => digits c (List.mem_of_mem_take member)
  · simp
  · exact fun c member => digits c (List.mem_of_mem_drop member)
  · rintro minus ds ⟨⟩
    exact ⟨(allDigits_replicate _).append (allDigits_toDigits _), by simp, by rwa [read]⟩
  · have written : (if decide (exponent < 0) then -(exponent.natAbs : ℤ) else exponent.natAbs) = exponent := by
      by_cases negative : exponent < 0
      · rw [if_pos (decide_eq_true negative)]
        omega
      · rw [if_neg (by simpa using negative)]
        omega
    have shifted : exponent - (d.chars.length - 1 : ℕ) = d.exponent := by omega
    rw [Literal.value, List.take_append_drop, Nat.ofDigitChars_ten_toDigits, Literal.power, read, written,
      List.length_drop, shifted, Decimal.value]
  · have digitsIs : (toString d.digits).toList = d.chars := by
      rw [Nat.toString_eq_repr, Nat.toList_repr]
    have fraction : (if d.chars.length ≤ 1 then "" else "." ++ String.ofList (d.chars.drop 1)) =
        String.ofList (if (d.chars.drop 1).isEmpty then [] else '.' :: d.chars.drop 1) := by
      by_cases one : d.chars.length ≤ 1
      · rw [if_pos one, List.drop_eq_nil_of_le one]
        rfl
      · have more : (d.chars.drop 1).isEmpty = false := by
          rw [List.isEmpty_eq_false_iff, ← List.length_pos_iff, List.length_drop]
          omega
        rw [if_neg one, more, if_neg Bool.false_ne_true, ← String.ofList_append]
        rfl
    have mark : (if exponent < 0 then "-" else "+") = String.ofList [if exponent < 0 then '-' else '+'] := by
      split <;> rfl
    simp only [scientific, digitsIs, power, zeros, fraction, mark, Literal.chars, Literal.exponentChars]
    rw [← String.toList_inj]
    simp

/-! ## Doubles -/

variable {x : Float}

theorem mantissa_eq_zero (zero : (Binary.ofFloat x).mantissa = 0) : x.toBits.toNat % 2 ^ 63 = 0 := by
  have small := x.toBits.toNat_lt
  simp only [Binary.ofFloat, Nat.pow_eq] at zero
  split at zero <;> omega

/-- The exponent of a double's decimal is far below the largest that is read. -/
theorem shortest_power (finite : Finite x) :
    ((shortest x).exponent + (shortest x).chars.length - 1).natAbs < 100000 := by
  by_cases zero : (Binary.ofFloat x).mantissa = 0
  · have isZero : shortest x = ⟨0, 0⟩ := by simp [shortest, zero]
    rw [isZero]
    decide
  · obtain ⟨-, atLeast, atMost⟩ := shortest_spec finite zero
    have few : (shortest x).chars.length ≤ 912 :=
      length_toDigits_le (by decide) (shortest_digits_lt finite zero)
    omega

/-- The text of a double is a literal with the value of its shortest decimal, behind a minus sign if the double
    has one. -/
theorem text_literal (finite : Finite x) :
    ∃ l : Literal, l.Valid ∧ l.ShowsDouble ∧ l.value = (shortest x).value ∧
      Layout.value.text x = String.ofList ((if isNegative x then ['-'] else []) ++ l.chars) := by
  have size (extreme : Bool) : ∃ l : Literal, l.Valid ∧ l.ShowsDouble ∧ l.value = (shortest x).value ∧
      (if extreme then scientific (shortest x) Layout.value.exponentDigits else fixed (shortest x)) =
        String.ofList l.chars := by
    cases extreme with
    | true => exact scientific_literal _ _ (shortest_power finite)
    | false => exact fixed_literal _
  have full (plain : String) : (if Layout.value.keepFraction && !plain.toList.contains '.' then
      plain ++ ".0" else plain) = if plain.toList.contains '.' then plain else plain ++ ".0" := by
    cases plain.toList.contains '.' <;> rfl
  simp only [Layout.text, finite.isNaN_eq_false, finite.isInf_eq_false, Bool.false_eq_true, if_false, full]
  generalize (x.abs != 0 && _) = extreme
  obtain ⟨l, valid, shows, value, text⟩ := size extreme
  rw [fixed] at text
  refine ⟨l, valid, shows, value, ?_⟩
  rw [text]
  cases isNegative x with
  | false => rfl
  | true => rw [if_pos rfl, if_pos rfl, String.ofList_append]

/-- The sign of a double does not change its decimal. -/
theorem shortest_neg (finite : Finite x) : shortest (-x) = shortest x := by
  have fraction : (-x).toBits.toNat % 2 ^ 52 = x.toBits.toNat % 2 ^ 52 := by
    rw [finite.toBits_neg]
    omega
  have biased : (-x).toBits.toNat / 2 ^ 52 % 2 ^ 11 = x.toBits.toNat / 2 ^ 52 % 2 ^ 11 := by
    rw [finite.toBits_neg]
    omega
  have mantissa : (Binary.ofFloat (-x)).mantissa = (Binary.ofFloat x).mantissa := by
    simp only [Binary.ofFloat, Nat.pow_eq, fraction, biased]
  have exponent : (Binary.ofFloat (-x)).exponent = (Binary.ofFloat x).exponent := by
    simp only [Binary.ofFloat, Nat.pow_eq, biased]
  simp only [shortest, Interval.ofBinary, mantissa, exponent]

/-- A literal with the value of a double's decimal is read as the double. -/
theorem readDouble_literal (finite : Finite x) (unsigned : isNegative x = false) {l : Literal} (valid : l.Valid)
    (value : l.value = (shortest x).value) : readDouble (String.ofList l.chars) = (x, true) := by
  obtain ⟨num, den, positive, is, read⟩ := Literal.readDouble_chars valid
  have small : x.toBits.toNat < 2 ^ 63 := by simpa [isNegative] using unsigned
  have size : (if num = 0 then 0 else nearestBits num den) = x.toBits.toNat := by
    -- Zero has no interval of its own, and is read as zero from any exponent.
    by_cases zero : (Binary.ofFloat x).mantissa = 0
    · have bits := mantissa_eq_zero zero
      have isZero : (shortest x).value = 0 := by simp [shortest, zero, Decimal.value]
      rw [value, isZero, div_eq_zero_iff, Nat.cast_eq_zero, Nat.cast_eq_zero] at is
      rw [if_pos (by omega)]
      omega
    · have valuePositive := holds_pos (normal_ofFloat finite zero) (shortest_spec finite zero).1
      rw [← value, ← is] at valuePositive
      have numPositive : num ≠ 0 := by
        rintro rfl
        simp at valuePositive
      rw [if_neg numPositive, nearestBits_shortest finite zero (Nat.pos_of_ne_zero numPositive) positive
        (is.trans value), Nat.mod_eq_of_lt small]
  have same : nearest false num den = x := by
    rw [nearest, size, if_neg Bool.false_ne_true, UInt64.ofNat_toNat, Float.ofBits_toBits]
  rw [read, same, finite.isInf_eq_false]
  rfl

/-- What is written for a finite double without a sign is read back as the double. -/
theorem readDouble_text (finite : Finite x) (unsigned : isNegative x = false) :
    readDouble (Layout.value.text x) = (x, true) := by
  obtain ⟨l, valid, -, value, text⟩ := text_literal finite
  rw [text, unsigned]
  exact readDouble_literal finite unsigned valid value

end ClassScript.Number
