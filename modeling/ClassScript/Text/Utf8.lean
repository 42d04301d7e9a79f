/-! # UTF-8

Reading bytes as UTF-8, one character at a time. Where the bytes are ill-formed, the reading takes
the longest run of bytes that could have begun a character, and at least one byte; the text shows
one replacement character for each such run.
-/

namespace ClassScript.Text.Utf8

/-- What the front of a byte sequence is: a character, or a run that is none. In both cases
    `more` bytes belong to it beyond the first one. -/
inductive Front
  | character (c : Char) (more : Nat)
  | illFormed (more : Nat)
  deriving DecidableEq, Repr

/-- What a first byte announces: how many continuation bytes follow, between which bounds the
    first of them lies, and what the first byte adds to the code point. -/
structure Lead where
  owed : Nat
  low : UInt8
  high : UInt8
  bits : Nat
  deriving DecidableEq, Repr

def lead? (b : UInt8) : Option Lead :=
  if 0xC2 ≤ b && b ≤ 0xDF then some ⟨1, 0x80, 0xBF, b.toNat - 0xC0⟩
  else if b = 0xE0 then some ⟨2, 0xA0, 0xBF, 0⟩
  else if b = 0xED then some ⟨2, 0x80, 0x9F, 0xD⟩
  else if 0xE1 ≤ b && b ≤ 0xEF then some ⟨2, 0x80, 0xBF, b.toNat - 0xE0⟩
  else if b = 0xF0 then some ⟨3, 0x90, 0xBF, 0⟩
  else if 0xF1 ≤ b && b ≤ 0xF3 then some ⟨3, 0x80, 0xBF, b.toNat - 0xF0⟩
  else if b = 0xF4 then some ⟨3, 0x80, 0x8F, 4⟩
  else none

/-- Read the continuation bytes that are owed, `taken` of them being read already. -/
def tails (taken : Nat) : (owed : Nat) → (low high : UInt8) → (bits : Nat) → List UInt8 → Front
  | 0, _, _, bits, _ => .character (Char.ofNat bits) taken
  | _ + 1, _, _, _, [] => .illFormed taken
  | owed + 1, low, high, bits, b :: rest =>
    if low ≤ b && b ≤ high then
      tails (taken + 1) owed 0x80 0xBF (bits * 64 + (b.toNat - 0x80)) rest
    else .illFormed taken

def front (b : UInt8) (rest : List UInt8) : Front :=
  if b < 0x80 then .character (Char.ofNat b.toNat) 0
  else match lead? b with
    | some lead => tails 0 lead.owed lead.low lead.high lead.bits rest
    | none => .illFormed 0

def decode : List UInt8 → List Char
  | [] => []
  | b :: rest =>
    match front b rest with
    | .character c more => c :: decode (rest.drop more)
    | .illFormed more => '\ufffd' :: decode (rest.drop more)
  termination_by bytes => bytes.length

def decodeEach : List UInt8 → List Char
  | [] => []
  | b :: rest =>
    match front b rest with
    | .character c more => c :: decodeEach (rest.drop more)
    | .illFormed _ => '\ufffd' :: decodeEach rest
  termination_by bytes => bytes.length

def encode (chars : List Char) : List UInt8 :=
  chars.flatMap String.utf8EncodeChar

end ClassScript.Text.Utf8
