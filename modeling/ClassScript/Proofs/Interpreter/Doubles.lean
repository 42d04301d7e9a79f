import ClassScript.Proofs.Interpreter.Signs
import ClassScript.Proofs.Number.Text

/-! # Printed doubles

A double is printed in full with a fraction, or with an exponent, so the printed text is never taken for an integer:
it is one token that is a double, behind a minus sign if the double has one.  The token is read as the double without
its sign, to the bit, and the sign is folded into the literal, so running the printed text yields the double
again (`evaluate_printedDouble`).
-/

namespace ClassScript

open Number (AllDigits Literal)

/-! ## Literals as tokens -/

namespace Piece

variable {cs : List Char} {rest : List UInt8} {l : Literal}

/-- Digits end in front of a byte that is no digit. -/
theorem digits_append (all : AllDigits cs) (stops : ∀ b ∈ rest.head?, isDigit b = false) :
    digits (cs.map byte ++ rest) = cs.length := by
  have own : ∀ b ∈ cs.map byte, isDigit b = true := by
    intro b member
    obtain ⟨c, there, rfl⟩ := List.mem_map.1 member
    exact isDigit_byte (all c there)
  have nothing : rest.takeWhile isDigit = [] := by
    cases rest with
    | nil => rfl
    | cons b rest => rw [List.takeWhile_cons, stops b rfl, if_neg Bool.false_ne_true]
  rw [digits, List.takeWhile_append_of_pos own, nothing, List.append_nil, List.length_map]

/-- The bytes of an exponent do not begin with a digit or a point. -/
theorem head_exponent (exponent : Option (Bool × List Char)) :
    ∀ b ∈ ((Literal.exponentChars exponent).map byte).head?, b = byte 'e' := by
  cases exponent with
  | none => simp [Literal.exponentChars]
  | some pair =>
    intro b is
    exact (Option.some.inj is).symm

theorem exponent_chars (valid : l.Valid) :
    exponent ((Literal.exponentChars l.exponent).map byte) = (Literal.exponentChars l.exponent).length := by
  cases is : l.exponent with
  | none => rfl
  | some pair =>
    obtain ⟨minus, ds⟩ := pair
    obtain ⟨all, -, -⟩ := valid.exponent minus ds is
    have size := @digits_append ds [] all (by simp)
    rw [List.append_nil] at size
    have sign : isDigit (byte (if minus then '-' else '+')) = false ∧
        isSign (byte (if minus then '-' else '+')) = true := by
      cases minus <;> decide
    simp only [Literal.exponentChars, List.map_cons, exponent, sign, size, List.length_cons]
    rw [if_pos (by decide), if_neg Bool.false_ne_true, if_pos trivial, Nat.add_comm]

def fractionChars (l : Literal) : List Char := if l.fraction.isEmpty then [] else '.' :: l.fraction

/-- What follows the digits in front does not begin with a digit, nor does what follows the fraction. -/
theorem head_not_digit (exponent : Option (Bool × List Char)) :
    ∀ b ∈ ((Literal.exponentChars exponent).map byte).head?, isDigit b = false := by
  intro b first
  rw [head_exponent exponent b first]
  rfl

theorem fraction_chars (valid : l.Valid) :
    fraction ((fractionChars l ++ Literal.exponentChars l.exponent).map byte) = (fractionChars l).length := by
  rw [fractionChars, List.map_append]
  cases is : l.fraction with
  | nil =>
    cases l.exponent with
    | none => rfl
    | some pair => rfl
  | cons c rest =>
    have all : AllDigits (c :: rest) := is ▸ valid.fraction
    have size := digits_append all (head_not_digit l.exponent)
    have begins := isDigit_byte (all c List.mem_cons_self)
    simp only [List.isEmpty_cons, Bool.false_eq_true, if_false, List.map_cons, List.cons_append, fraction, begins,
      decide_true, Bool.and_self, if_true]
    rw [← List.cons_append, ← List.map_cons, size]
    simp [Nat.add_comm]

/-- A literal with a fraction or an exponent is a double, up to its end. -/
theorem number_chars (valid : l.Valid) (shows : l.ShowsDouble) :
    number (l.chars.map byte) = (.double, l.chars.length) := by
  have parts : l.chars.map byte =
      l.whole.map byte ++ (fractionChars l ++ Literal.exponentChars l.exponent).map byte := by
    rw [Literal.chars, ← fractionChars, List.append_assoc, List.map_append]
  have stops : ∀ b ∈ ((fractionChars l ++ Literal.exponentChars l.exponent).map byte).head?, isDigit b = false := by
    rw [fractionChars]
    cases l.fraction with
    | nil => exact head_not_digit l.exponent
    | cons c rest =>
      intro b first
      rw [← Option.some.inj first]
      rfl
  have whole := digits_append valid.whole stops
  -- What is left for the fraction, and then for the exponent.
  have behindWhole : (l.chars.map byte).drop l.whole.length =
      (fractionChars l ++ Literal.exponentChars l.exponent).map byte := by
    rw [parts, List.drop_left' (List.length_map _)]
  have behindFraction : (l.chars.map byte).drop (l.whole.length + (fractionChars l).length) =
      (Literal.exponentChars l.exponent).map byte := by
    rw [← List.drop_drop, behindWhole, List.map_append, List.drop_left' (List.length_map _)]
  have more : (fractionChars l).length + (Literal.exponentChars l.exponent).length ≠ 0 := by
    rcases shows with hasFraction | hasExponent
    · have filled : fractionChars l = '.' :: l.fraction := by
        rw [fractionChars, List.isEmpty_eq_false_iff.2 hasFraction, if_neg Bool.false_ne_true]
      simp [filled]
    · obtain ⟨pair, is⟩ := Option.isSome_iff_exists.1 hasExponent
      simp [is, Literal.exponentChars]
  have size : l.chars.length =
      l.whole.length + (fractionChars l).length + (Literal.exponentChars l.exponent).length := by
    rw [Literal.chars, ← fractionChars, List.length_append, List.length_append]
  rw [← parts] at whole
  simp only [number, whole, behindWhole, fraction_chars valid, behindFraction, exponent_chars valid, if_neg more, size]

theorem ascii_chars (valid : l.Valid) : ∀ c ∈ l.chars, c.toNat < 128 := by
  have point : '.'.toNat < 128 := by decide
  have exponent : ∀ c ∈ Literal.exponentChars l.exponent, c.toNat < 128 := by
    cases is : l.exponent with
    | none => simp [Literal.exponentChars]
    | some pair =>
      obtain ⟨minus, ds⟩ := pair
      have sign : (if minus then '-' else '+').toNat < 128 := by cases minus <;> decide
      have all := (valid.exponent minus ds is).1
      simp only [Literal.exponentChars, List.forall_mem_cons]
      exact ⟨by decide, sign, fun c member => ascii_of_isDigit (all c member)⟩
  have fraction : ∀ c ∈ fractionChars l, c.toNat < 128 := by
    intro c member
    rw [fractionChars] at member
    split at member
    · cases member
    · rcases List.mem_cons.1 member with rfl | member
      · exact point
      · exact ascii_of_isDigit (valid.fraction c member)
  rw [Literal.chars, ← fractionChars]
  refine List.forall_mem_append.2 ⟨List.forall_mem_append.2 ⟨fun c member => ?_, fraction⟩, exponent⟩
  exact ascii_of_isDigit (valid.whole c member)

/-- A literal ends in a digit. -/
theorem exists_last_digit (valid : l.Valid) : ∃ front c, l.chars = front ++ [c] ∧ c.isDigit = true := by
  have ends {cs : List Char} (all : AllDigits cs) (filled : cs ≠ []) (front : List Char) :
      ∃ front' c, front ++ cs = front' ++ [c] ∧ c.isDigit = true := by
    refine ⟨front ++ cs.dropLast, cs.getLast filled, ?_, all _ (List.getLast_mem filled)⟩
    rw [List.append_assoc, List.dropLast_append_getLast filled]
  rw [Literal.chars]
  -- The last digit is that of the last part that is there.
  cases is : l.exponent with
  | some pair =>
    obtain ⟨minus, ds⟩ := pair
    obtain ⟨all, filled, -⟩ := valid.exponent minus ds is
    obtain ⟨front, c, parts, digit⟩ := ends all filled
      (l.whole ++ (if l.fraction.isEmpty then [] else '.' :: l.fraction) ++ ['e', if minus then '-' else '+'])
    exact ⟨front, c, by simpa [Literal.exponentChars] using parts, digit⟩
  | none =>
    cases fraction : l.fraction with
    | nil =>
      obtain ⟨front, c, parts, digit⟩ := ends valid.whole valid.nonempty []
      exact ⟨front, c, by simpa [Literal.exponentChars] using parts, digit⟩
    | cons d rest =>
      have all : AllDigits (d :: rest) := fraction ▸ valid.fraction
      obtain ⟨front, c, parts, digit⟩ := ends all (List.cons_ne_nil d rest) (l.whole ++ ['.'])
      exact ⟨front, c, by simpa [Literal.exponentChars] using parts, digit⟩

theorem exists_first_digit (valid : l.Valid) : ∃ c rest, l.chars = c :: rest ∧ c.isDigit = true := by
  obtain ⟨c, rest, is⟩ := List.exists_cons_of_ne_nil valid.nonempty
  rw [Literal.chars, is]
  exact ⟨c, _, rfl, valid.whole c (by simp [is])⟩

/-- A literal with a fraction or an exponent is one token. -/
theorem scan_literal (valid : l.Valid) (shows : l.ShowsDouble) :
    scan (l.chars.map byte) = ([(.double, String.ofList l.chars)], []) := by
  have whole := number_chars valid shows
  have ascii := ascii_chars valid
  have fine : complaint? ⟨.token .double, l.chars.map byte⟩ = none := by
    obtain ⟨front, c, parts, digit⟩ := exists_last_digit valid
    have noSign : isSign (byte c) = false := by
      have small : ∀ n < 58, 48 ≤ n → isSign (UInt8.ofNat n) = false := by decide
      have bounds := Number.toNat_of_isDigit digit
      exact small c.toNat (by omega) bounds.1
    rw [complaint?, parts, List.map_append, List.map_singleton]
    simp [PlacedPiece.complaint?, noSign]
  obtain ⟨c, rest, chars, begins⟩ := exists_first_digit valid
  rw [chars] at whole ascii fine ⊢
  exact scan_number begins ascii (.inr rfl) whole fine

end Piece

/-! ## Printed doubles as programs -/

namespace Interpreter

open Evaluator
open Number (isNegative readDouble text_literal readDouble_literal shortest_neg)

variable {x : Float}

/-- A printed double is a literal with a fraction or an exponent, behind a minus sign if it has one, and the literal
    is read as the double without its sign. -/
theorem scan_printedDouble (finite : Number.Finite x) :
    ∃ lexeme, readDouble lexeme = (if isNegative x then -x else x, true) ∧
      Piece.scan (printed (.double x)) =
        ((if isNegative x then [(.minus, "-")] else []) ++ [(.double, lexeme)], []) := by
  obtain ⟨l, valid, shows, value, text⟩ := text_literal finite
  refine ⟨String.ofList l.chars, ?_, ?_⟩
  · cases negative : isNegative x with
    | false => exact readDouble_literal finite negative valid value
    | true =>
      have unsigned : isNegative (-x) = false := by
        rw [finite.isNegative_neg, negative]
        rfl
      exact readDouble_literal finite.neg unsigned valid (value.trans (by rw [shortest_neg finite]))
  · have scanned := Piece.scan_literal valid shows
    have ascii : ∀ c ∈ (if isNegative x then ['-'] else []) ++ l.chars, c.toNat < 128 := by
      refine List.forall_mem_append.2 ⟨?_, Piece.ascii_chars valid⟩
      cases isNegative x <;> simp
    have shown : (Value.double x).text = Number.Layout.value.text x := rfl
    rw [printed, shown, text, Piece.toUTF8_ofList, Piece.encode_ascii ascii]
    cases isNegative x with
    | false => exact scanned
    | true =>
      -- A digit follows the minus sign, so the sign is a token of its own.
      obtain ⟨c, rest, chars, digit⟩ := Piece.exists_first_digit valid
      rw [chars] at scanned ⊢
      simp only [if_true, List.singleton_append, List.map_cons, Piece.scan_minus (Piece.isDigit_byte digit)]
      rw [← List.map_cons, scanned]

/-- A printed double is a literal. -/
theorem parseSource_printedDouble (finite : Number.Finite x) :
    ∃ span place, parseSource (printed (.double x)) = (.tree span [.double place x], []) := by
  obtain ⟨lexeme, read, scanned⟩ := scan_printedDouble finite
  obtain ⟨sign, t, close, tokens, isMinus, kind, rfl, ends⟩ := tokenize_signed scanned
  have found : Parser.literal? t = some (.double t.span (if isNegative x then -x else x)) := by
    simp only [Parser.literal?, kind, read, if_true]
  simp only [parseSource, tokens, List.nil_append]
  cases negative : isNegative x with
  | true =>
    rw [negative, if_pos rfl] at found
    obtain ⟨span, place, parsed⟩ := Parser.parseTokens_negated found ends isMinus
    rw [Parser.negate, finite.neg_neg] at parsed
    rw [if_pos rfl, List.singleton_append, parsed]
    exact ⟨span, place, rfl⟩
  | false =>
    rw [negative, if_neg Bool.false_ne_true] at found
    obtain ⟨span, parsed⟩ := Parser.parseTokens_literal found ends
    rw [if_neg Bool.false_ne_true, List.nil_append, parsed]
    exact ⟨span, t.span, rfl⟩

/-- A printed double is one double token, behind a minus sign exactly if the sign bit of the double is set, and a
    program that yields the double again, to the bit. -/
theorem evaluate_printedDouble (finite : Number.Finite x) :
    (∃ sign t close, tokenize (printed (.double x)) = ((if isNegative x then [sign] else []) ++ [t, close], []) ∧
      sign.kind = .minus ∧ t.kind = .double ∧ close.kind = .endOfFile) ∧
    (∃ span place, parseSource (printed (.double x)) = (.tree span [.double place x], [])) ∧
    ∀ policy m, evaluate policy (parseSource (printed (.double x))).1 m = (.value (.double x), m) := by
  obtain ⟨lexeme, -, scanned⟩ := scan_printedDouble finite
  obtain ⟨sign, t, close, tokens, isMinus, kind, -, ends⟩ := tokenize_signed scanned
  obtain ⟨span, place, parsed⟩ := parseSource_printedDouble finite
  refine ⟨⟨sign, t, close, tokens, isMinus, kind, ends⟩, ⟨span, place, parsed⟩, fun policy m => ?_⟩
  rw [parsed]
  exact @evaluate_statement policy m m (.double place x) _ rfl span

def leastNegative : Float := Float.ofBits 0x8000000000000001

theorem evaluate_printedDouble_leastNegative :
    Number.Finite leastNegative ∧ printed (.double leastNegative) = "-5e-324".toUTF8.data.toList ∧
      ∀ policy m, evaluate policy (parseSource (printed (.double leastNegative))).1 m
        = (.value (.double leastNegative), m) := by
  have finite : Number.Finite leastNegative := by
    rw [leastNegative, Number.Finite, Number.toBits_ofBits (by decide)]
    decide
  exact ⟨finite, by decide +kernel, (evaluate_printedDouble finite).2.2⟩

end Interpreter

end ClassScript
