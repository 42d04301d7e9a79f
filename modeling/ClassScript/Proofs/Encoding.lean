import ClassScript.Encoding.Standard
import ClassScript.Proofs.Text.Utf8

/-! # Forms of a text

A text can be written in UTF-8 or, in two byte orders, in UTF-16, each with or without a byte order mark in front.
Of a registry it is assumed which bytes its decoders take for one character, that a mark in front is followed, and
that bytes without a mark are left to the decoder for UTF-8 (`Registry.Unicode`).  Then whole texts are read
(`Decoder.ReadsUtf8.decoder_encode`, `Decoder.ReadsUtf16.decoder_toUtf16`), and the bytes of a text in UTF-8 are no
mark unless the text begins with one (`not_isPrefix_encode`).  So a source is the same in all of its forms
(`decode_forms`).  The registry of the program is such a registry (`Registry.unicode_standard`).
-/

namespace ClassScript

open Charset

/-! ## Writing UTF-16 -/

namespace Encoding

/-- The units of a character: one, or the two halves of a pair. -/
def units (c : Char) : List Nat :=
  if c.toNat < 0x10000 then [c.toNat]
  else [0xd800 + (c.toNat - 0x10000) / 0x400, 0xdc00 + (c.toNat - 0x10000) % 0x400]

def unitBytes (littleEndian : Bool) (u : Nat) : List UInt8 :=
  let low := UInt8.ofNat (u % 256)
  let high := UInt8.ofNat (u / 256)
  if littleEndian then [low, high] else [high, low]

def toUtf16 (littleEndian : Bool) (text : List Char) : List UInt8 :=
  (text.flatMap units).flatMap (unitBytes littleEndian)

theorem exists_unitBytes (littleEndian : Bool) {u : Nat} (small : u < 0x10000) :
    ∃ a b, unitBytes littleEndian u = [a, b] ∧ unit littleEndian a b = u := by
  have low : (UInt8.ofNat (u % 256)).toNat = u % 256 := by
    rw [UInt8.toNat_ofNat', Nat.mod_mod]
  have high : (UInt8.ofNat (u / 256)).toNat = u / 256 := by
    rw [UInt8.toNat_ofNat']
    omega
  cases littleEndian with
  | true =>
    refine ⟨_, _, rfl, ?_⟩
    rw [unit, if_pos rfl, low, high]
    omega
  | false =>
    refine ⟨_, _, rfl, ?_⟩
    rw [unit, if_neg Bool.false_ne_true, low, high]
    omega

theorem toUtf16_cons (littleEndian : Bool) (c : Char) (text : List Char) :
    toUtf16 littleEndian (c :: text) =
      (units c).flatMap (unitBytes littleEndian) ++ toUtf16 littleEndian text := by
  rw [toUtf16, List.flatMap_cons, List.flatMap_append]
  rfl

def marks : List (List UInt8) := [[0xef, 0xbb, 0xbf], [0xff, 0xfe], [0xfe, 0xff]]

end Encoding

open Encoding

/-! ## What is assumed of decoders -/

namespace Decoder

def after (d : Decoder) (front : List UInt8) : Decoder := fun rest => d (front ++ rest)

/-- The bytes of a character in UTF-8 are kept, whatever follows them. -/
structure ReadsUtf8 (d : Decoder) : Prop where
  nothing : d [] = .ok []
  character (c : Char) (rest : List UInt8) :
    d (String.utf8EncodeChar c ++ rest) = (d rest).map (String.utf8EncodeChar c ++ ·)

/-- A unit that is no half of a pair gives its character, and two halves give theirs, whatever follows them. -/
structure ReadsUtf16 (littleEndian : Bool) (d : Decoder) : Prop where
  nothing : d [] = .ok []
  single {a b : UInt8} (rest : List UInt8)
    (whole : (isHigh (unit littleEndian a b) || isLow (unit littleEndian a b)) = false) :
    d (a :: b :: rest) = (d rest).map (String.utf8EncodeChar (Char.ofNat (unit littleEndian a b)) ++ ·)
  pair {a b a' b' : UInt8} (rest : List UInt8) (high : isHigh (unit littleEndian a b) = true)
    (low : isLow (unit littleEndian a' b') = true) :
    d (a :: b :: a' :: b' :: rest) =
      (d rest).map (String.utf8EncodeChar (join (unit littleEndian a b) (unit littleEndian a' b')) ++ ·)

end Decoder

structure Registry.Unicode (registry : Registry) : Prop where
  utf8 : ∃ d : Decoder, registry.encoding "UTF-8" = .ok (some ⟨d, true⟩) ∧ d.ReadsUtf8
  utf16 : ∃ d : Decoder, registry.encoding "UTF-16" = .ok (some ⟨d, false⟩) ∧
    (d.after [0xff, 0xfe]).ReadsUtf16 true ∧ (d.after [0xfe, 0xff]).ReadsUtf16 false
  utf16le : ∃ d : Decoder, registry.encoding "UTF-16LE" = .ok (some ⟨d, false⟩) ∧ d.ReadsUtf16 true
  utf16be : ∃ d : Decoder, registry.encoding "UTF-16BE" = .ok (some ⟨d, false⟩) ∧ d.ReadsUtf16 false
  marked8 (d : Decoder) : ((registry.sniff d).after [0xef, 0xbb, 0xbf]).ReadsUtf8
  markedLittle (d : Decoder) : ((registry.sniff d).after [0xff, 0xfe]).ReadsUtf16 true
  markedBig (d : Decoder) : ((registry.sniff d).after [0xfe, 0xff]).ReadsUtf16 false
  unmarked (d : Decoder) {bytes : List UInt8} (none : ∀ mark ∈ marks, ¬mark <+: bytes) :
    registry.sniff d bytes = d bytes

/-! ## Whole texts -/

namespace Decoder

theorem ReadsUtf8.decoder_encode {d : Decoder} (reads : d.ReadsUtf8) (text : List Char) :
    d (Text.Utf8.encode text) = .ok (Text.Utf8.encode text) := by
  induction text with
  | nil => exact reads.nothing
  | cons c text ih =>
    rw [Text.Utf8.encode_cons, reads.character, ih]
    rfl

/-- A character is read from its units, whatever follows. -/
theorem ReadsUtf16.decoder_units {littleEndian : Bool} {d : Decoder} (reads : d.ReadsUtf16 littleEndian) (c : Char)
    (rest : List UInt8) :
    d ((units c).flatMap (unitBytes littleEndian) ++ rest) = (d rest).map (String.utf8EncodeChar c ++ ·) := by
  have valid : c.toNat < 0xD800 ∨ 0xDFFF < c.toNat ∧ c.toNat < 0x110000 := c.valid
  rw [units]
  split
  case isTrue small =>
    obtain ⟨a, b, bytes, same⟩ := exists_unitBytes littleEndian small
    -- Such a character is no surrogate, so its unit stands alone.
    have whole : (isHigh (unit littleEndian a b) || isLow (unit littleEndian a b)) = false := by
      simp only [isHigh, isLow, same, Bool.or_eq_false_iff, Bool.and_eq_false_iff, decide_eq_false_iff_not]
      omega
    rw [List.flatMap_singleton, bytes]
    exact (reads.single rest whole).trans (by rw [same, Char.ofNat_toNat])
  case isFalse large =>
    obtain ⟨a, b, first, sameFirst⟩ :=
      exists_unitBytes littleEndian (u := 0xd800 + (c.toNat - 0x10000) / 0x400) (by omega)
    obtain ⟨a', b', second, sameSecond⟩ :=
      exists_unitBytes littleEndian (u := 0xdc00 + (c.toNat - 0x10000) % 0x400) (by omega)
    have high : isHigh (unit littleEndian a b) = true := by
      simp only [isHigh, sameFirst, Bool.and_eq_true, decide_eq_true_eq]
      omega
    have low : isLow (unit littleEndian a' b') = true := by
      simp only [isLow, sameSecond, Bool.and_eq_true, decide_eq_true_eq]
      omega
    have joined : join (unit littleEndian a b) (unit littleEndian a' b') = c := by
      have number : 0x10000 + (unit littleEndian a b - 0xd800) * 0x400 + (unit littleEndian a' b' - 0xdc00) =
          c.toNat := by
        rw [sameFirst, sameSecond]
        omega
      rw [join, number, Char.ofNat_toNat]
    rw [List.flatMap_cons, List.flatMap_singleton, first, second]
    exact (reads.pair rest high low).trans (by rw [joined])

theorem ReadsUtf16.decoder_toUtf16 {littleEndian : Bool} {d : Decoder} (reads : d.ReadsUtf16 littleEndian)
    (text : List Char) : d (toUtf16 littleEndian text) = .ok (Text.Utf8.encode text) := by
  induction text with
  | nil => exact reads.nothing
  | cons c text ih =>
    rw [toUtf16_cons, reads.decoder_units, ih, Text.Utf8.encode_cons]
    rfl

end Decoder

/-! ## Marks -/

/-- A text that does not begin with a mark has no mark in UTF-8. -/
theorem not_isPrefix_encode {text : List Char} (unmarked : text.head? ≠ some '\ufeff') :
    ∀ mark ∈ marks, ¬mark <+: Text.Utf8.encode text := by
  cases text with
  | nil => decide
  | cons c text =>
    obtain ⟨b, more, written, found⟩ := Text.Utf8.exists_front_utf8EncodeChar c (Text.Utf8.encode text)
    have other : c ≠ '\ufeff' := fun is => unmarked (congrArg some is)
    rw [Text.Utf8.encode_cons, written, List.cons_append]
    generalize more ++ Text.Utf8.encode text = bytes at found
    simp only [marks, List.forall_mem_cons, List.not_mem_nil, false_implies, implies_true, and_true]
    refine ⟨?_, ?_, ?_⟩
    · -- These are the bytes of the mark as a character.
      rintro ⟨rest, ⟨⟩⟩
      have mark : Text.Utf8.front 0xef (0xbb :: 0xbf :: rest) = .character '\ufeff' 2 :=
        Text.Utf8.front_three (v := 0xfeff) (by decide) (by decide) (by decide) rfl rfl rfl
      have same : Text.Utf8.Front.character c more.length = .character '\ufeff' 2 := found.symm.trans mark
      exact other (Text.Utf8.Front.character.inj same).1
    · -- No character begins with these.
      rintro ⟨rest, ⟨⟩⟩
      cases found
    · rintro ⟨rest, ⟨⟩⟩
      cases found

theorem Registry.decode_of_encoding {registry : Registry} {given name : String} {encoding : Encoding}
    (found : registry.encoding name = .ok (some encoding))
    (means : (if given.isEmpty then defaultName else given) = name) {bytes text : List UInt8}
    (read : registry.decoderFor encoding bytes = .ok text) : registry.decode given bytes = .ok text := by
  have look : registry.lookup given = .ok encoding := by
    simp only [Registry.lookup, means, found]
  simp only [Registry.decode, look, read]

/-! ## The registry of the program -/

theorem readsUtf16_fromUtf16 (littleEndian : Bool) :
    Decoder.ReadsUtf16 littleEndian fun bytes => .ok (fromUtf16 littleEndian bytes) where
  nothing := rfl
  single rest whole := by
    rw [fromUtf16, utf16Chars.eq_def]
    simp only [whole, Bool.false_eq_true, ↓reduceIte]
    rfl
  pair rest high low := by
    rw [fromUtf16, utf16Chars.eq_def]
    simp only [high, low, Bool.true_or, ↓reduceIte]
    rfl

theorem Registry.unicode_standard : Registry.standard.Unicode where
  utf8 := by
    refine ⟨_, rfl, by simp [Charset.decode, Text.Utf8.encode, Text.Utf8.decode], fun c rest => ?_⟩
    simp only [Charset.decode, Text.Utf8.decode_utf8EncodeChar, Text.Utf8.encode_cons]
    rfl
  utf16 := ⟨_, rfl, readsUtf16_fromUtf16 true, readsUtf16_fromUtf16 false⟩
  utf16le := ⟨_, rfl, readsUtf16_fromUtf16 true⟩
  utf16be := ⟨_, rfl, readsUtf16_fromUtf16 false⟩
  marked8 _ := ⟨rfl, fun _ _ => rfl⟩
  markedLittle _ := readsUtf16_fromUtf16 true
  markedBig _ := readsUtf16_fromUtf16 false
  unmarked d bytes none := by
    change Charset.sniff d bytes = d bytes
    rw [Charset.sniff.eq_def]
    split
    next rest => exact (none [0xff, 0xfe] (by decide) ⟨rest, rfl⟩).elim
    next rest => exact (none [0xfe, 0xff] (by decide) ⟨rest, rfl⟩).elim
    next rest => exact (none [0xef, 0xbb, 0xbf] (by decide) ⟨rest, rfl⟩).elim
    next => rfl

/-! ## All forms -/

namespace Registry

/-- A text that does not begin with a mark is read from all its forms: as UTF-8, which is also the encoding without a
    name, from its bytes in UTF-8 with and without a mark and from those in UTF-16 with one, as UTF-16 from the latter,
    and in a given order from those without a mark. -/
theorem decode_forms {registry : Registry} (unicode : registry.Unicode) (text : List Char)
    (unmarked : text.head? ≠ some '\ufeff') :
    (∀ name ∈ ["", "UTF-8"],
      ∀ bytes ∈ [Text.Utf8.encode text, 0xef :: 0xbb :: 0xbf :: Text.Utf8.encode text,
        0xff :: 0xfe :: toUtf16 true text, 0xfe :: 0xff :: toUtf16 false text],
      registry.decode name bytes = .ok (Text.Utf8.encode text)) ∧
    (∀ bytes ∈ [0xff :: 0xfe :: toUtf16 true text, 0xfe :: 0xff :: toUtf16 false text],
      registry.decode "UTF-16" bytes = .ok (Text.Utf8.encode text)) ∧
    registry.decode "UTF-16LE" (toUtf16 true text) = .ok (Text.Utf8.encode text) ∧
    registry.decode "UTF-16BE" (toUtf16 false text) = .ok (Text.Utf8.encode text) := by
  refine ⟨?_, ?_, ?_, ?_⟩
  · obtain ⟨d, registered, reads⟩ := unicode.utf8
    have sniffed : ∀ bytes ∈ [Text.Utf8.encode text, 0xef :: 0xbb :: 0xbf :: Text.Utf8.encode text,
        0xff :: 0xfe :: toUtf16 true text, 0xfe :: 0xff :: toUtf16 false text],
        registry.decoderFor ⟨d, true⟩ bytes = .ok (Text.Utf8.encode text) := by
      simp only [List.forall_mem_cons, List.not_mem_nil, false_implies, implies_true, and_true]
      exact ⟨(unicode.unmarked d (not_isPrefix_encode unmarked)).trans (reads.decoder_encode text),
        (unicode.marked8 d).decoder_encode text, (unicode.markedLittle d).decoder_toUtf16 text,
        (unicode.markedBig d).decoder_toUtf16 text⟩
    simp only [List.forall_mem_cons (a := ""), List.forall_mem_singleton]
    exact ⟨fun bytes member => decode_of_encoding registered rfl (sniffed bytes member),
      fun bytes member => decode_of_encoding registered rfl (sniffed bytes member)⟩
  · obtain ⟨d, registered, little, big⟩ := unicode.utf16
    simp only [List.forall_mem_cons, List.not_mem_nil, false_implies, implies_true, and_true]
    exact ⟨decode_of_encoding registered rfl (little.decoder_toUtf16 text),
      decode_of_encoding registered rfl (big.decoder_toUtf16 text)⟩
  · obtain ⟨d, registered, reads⟩ := unicode.utf16le
    exact decode_of_encoding registered rfl (reads.decoder_toUtf16 text)
  · obtain ⟨d, registered, reads⟩ := unicode.utf16be
    exact decode_of_encoding registered rfl (reads.decoder_toUtf16 text)

def sizedText : List Char := ['a', 'ä', '€', '𝄞']

theorem decode_forms_sizedText :
    standard.Unicode ∧ sizedText.head? ≠ some '\ufeff' ∧
      toUtf16 false sizedText = [0x00, 0x61, 0x00, 0xe4, 0x20, 0xac, 0xd8, 0x34, 0xdd, 0x1e] ∧
      standard.decode "" (0xfe :: 0xff :: toUtf16 false sizedText) =
        .ok [0x61, 0xc3, 0xa4, 0xe2, 0x82, 0xac, 0xf0, 0x9d, 0x84, 0x9e] ∧
      standard.decode "UTF-16LE" (toUtf16 true sizedText) =
        .ok [0x61, 0xc3, 0xa4, 0xe2, 0x82, 0xac, 0xf0, 0x9d, 0x84, 0x9e] := by
  have unmarked : sizedText.head? ≠ some '\ufeff' := by decide
  have bytes : Text.Utf8.encode sizedText = [0x61, 0xc3, 0xa4, 0xe2, 0x82, 0xac, 0xf0, 0x9d, 0x84, 0x9e] := by
    decide
  rw [← bytes]
  obtain ⟨sniffed, -, little, -⟩ := decode_forms unicode_standard sizedText unmarked
  exact ⟨unicode_standard, unmarked, by decide, sniffed "" (by decide) _ (by simp), little⟩

end Registry

end ClassScript
