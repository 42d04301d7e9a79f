import ClassScript.Encoding
import ClassScript.Text.Blank
import ClassScript.Text.Utf8

/-! # The encodings of the program

The registry that the program is linked with knows the forms of Unicode and two encodings with one
byte for each character. The case of a name does not matter, and nor do blanks around it. Bytes that
mean nothing in an encoding become replacement characters, so decoding never fails.
-/

namespace ClassScript

inductive Charset
  | utf8
  /-- UTF-16 in the order of its byte order mark, with the high byte first if there is none. -/
  | utf16
  | utf16le
  | utf16be
  | latin1
  | ascii
  deriving DecidableEq, Repr, Inhabited

namespace Charset

/-! ## Names -/

/-- The lower-case letter of a letter, as far as names go: ASCII has the only letters of registered
    names, and two other letters have their lower case there. -/
def lowerLetter (c : Char) : Char :=
  if c.toNat = 0x130 then 'i' else if c.toNat = 0x212a then 'k' else c.toLower

def lower (name : String) : String := String.ofList (name.toList.map lowerLetter)

def readable : List (Charset × List String) :=
  [(.utf8, ["utf-8", "csutf8"]),
    (.utf16, ["utf-16", "csutf16"]),
    (.utf16le, ["utf-16le", "csutf16le"]),
    (.utf16be, ["utf-16be", "csutf16be"]),
    (.latin1, ["iso-8859-1", "iso_8859-1", "iso_8859-1:1987", "iso-ir-100", "latin1", "l1",
      "ibm819", "cp819", "csisolatin1"]),
    (.ascii, ["us-ascii", "us", "iso-ir-6", "ansi_x3.4-1968", "ansi_x3.4-1986",
      "iso_646.irv:1991", "iso646-us", "ibm367", "cp367", "csascii"])]

def unreadable : List String :=
  ["utf-7", "csutf7", "utf-32", "csutf32", "utf-32le", "csutf32le", "utf-32be", "csutf32be",
    "cesu-8", "cscesu8", "cscesu-8", "scsu", "csscsu"]

def ofName (name : String) : Except String (Option Charset) :=
  let key := lower (Text.trim name)
  match readable.find? (·.2.contains key) with
  | some (charset, _) => .ok (some charset)
  | none =>
    if unreadable.contains key then .ok none else .error "ianaindex: invalid encoding name"

/-! ## Decoding -/

/-- What stands for bytes that mean nothing. -/
def replacement : Char := Char.ofNat 0xfffd

def unit (littleEndian : Bool) (a b : UInt8) : Nat :=
  if littleEndian then a.toNat + 256 * b.toNat else 256 * a.toNat + b.toNat

def isHigh (u : Nat) : Bool := 0xd800 ≤ u && u < 0xdc00

def isLow (u : Nat) : Bool := 0xdc00 ≤ u && u < 0xe000

def join (u v : Nat) : Char := Char.ofNat (0x10000 + (u - 0xd800) * 0x400 + (v - 0xdc00))

/-- The characters of bytes in UTF-16. A half before a second half goes together with it, whichever
    half it is; any other half means nothing, and nor does a single byte at the end. -/
def utf16Chars (littleEndian : Bool) : List UInt8 → List Char
  | [] => []
  | [_] => [replacement]
  | a :: b :: rest =>
    let u := unit littleEndian a b
    if isHigh u || isLow u then
      match rest with
      | c :: d :: after =>
        let v := unit littleEndian c d
        if isLow v then
          (if isHigh u then join u v else replacement) :: utf16Chars littleEndian after
        else replacement :: utf16Chars littleEndian (c :: d :: after)
      | rest => replacement :: utf16Chars littleEndian rest
    else Char.ofNat u :: utf16Chars littleEndian rest

def fromUtf16 (littleEndian : Bool) (bytes : List UInt8) : List UInt8 :=
  Text.Utf8.encode (utf16Chars littleEndian bytes)

def decode : Charset → List UInt8 → List UInt8
  | .utf8, bytes => Text.Utf8.encode (Text.Utf8.decode bytes)
  | .utf16, 0xff :: 0xfe :: rest => fromUtf16 true rest
  | .utf16, 0xfe :: 0xff :: rest => fromUtf16 false rest
  | .utf16, bytes => fromUtf16 false bytes
  | .utf16le, bytes => fromUtf16 true bytes
  | .utf16be, bytes => fromUtf16 false bytes
  | .latin1, bytes => Text.Utf8.encode (bytes.map fun b => Char.ofNat b.toNat)
  | .ascii, bytes =>
    Text.Utf8.encode (bytes.map fun b => if b < 0x80 then Char.ofNat b.toNat else replacement)

def encoding (charset : Charset) : Encoding :=
  ⟨fun bytes => .ok (charset.decode bytes), charset = .utf8⟩

/-- Follow a byte order mark. What follows that of UTF-8 is taken as it is. -/
def sniff (decoder : Decoder) : Decoder
  | 0xff :: 0xfe :: rest => .ok (fromUtf16 true rest)
  | 0xfe :: 0xff :: rest => .ok (fromUtf16 false rest)
  | 0xef :: 0xbb :: 0xbf :: rest => .ok rest
  | bytes => decoder bytes

end Charset

def Registry.standard : Registry where
  encoding name := (Charset.ofName name).map (·.map Charset.encoding)
  sniff := Charset.sniff

end ClassScript
