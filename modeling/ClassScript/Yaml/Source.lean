import ClassScript.Yaml.Problem

/-! # Texts as YAML takes them in

A text comes as bytes in UTF-8 or, if a byte order mark says so, in UTF-16. Only characters that can
be printed are allowed, tabs and line breaks apart.

Bytes are taken in by blocks. Before a character of a block is looked at, the whole block has to be
well-formed; so of a text with a fault in it, only the blocks before that fault are seen. A
character that is cut off by the end of the text is noticed last, after all other characters.
-/

namespace ClassScript.Yaml

structure Fault where
  cause : Cause
  /-- The characters before the fault in the same block, which are not seen before the fault is. -/
  hidden : List Char
  deriving DecidableEq, Repr, Inhabited

/-- A text: its characters by blocks, as many as can be seen, and what is wrong after them. -/
structure Source where
  blocks : List (List Char)
  fault : Option Fault
  deriving DecidableEq, Repr, Inhabited

inductive Form
  | bytes
  /-- Units of two bytes, the lower one first or last. -/
  | units (lowFirst : Bool)
  deriving DecidableEq, Repr, Inhabited

/-- What the front of a byte sequence is; `more` bytes belong to it beyond the first one. -/
inductive Front
  | character (c : Char) (more : Nat)
  | illFormed (cause : Cause) (more : Nat)
  /-- The text ends within it. -/
  | cutOff (cause : Cause)
  deriving DecidableEq, Repr, Inhabited

namespace Source

def isAllowed (code : Nat) : Bool :=
  code = 0x09 || code = 0x0a || code = 0x0d || (0x20 ≤ code && code ≤ 0x7e) || code = 0x85
    || (0xa0 ≤ code && code ≤ 0xd7ff) || (0xe000 ≤ code && code ≤ 0xfffd)
    || (0x10000 ≤ code && code ≤ 0x10ffff)

def accept (code more : Nat) : Front :=
  if isAllowed code then .character (Char.ofNat code) more else .illFormed .control more

def lead? (b : UInt8) : Option (Nat × Nat) :=
  if b < 0x80 then some (0, b.toNat)
  else if 0xc0 ≤ b && b < 0xe0 then some (1, b.toNat - 0xc0)
  else if 0xe0 ≤ b && b < 0xf0 then some (2, b.toNat - 0xe0)
  else if 0xf0 ≤ b && b < 0xf8 then some (3, b.toNat - 0xf0)
  else none

def isTrail (b : UInt8) : Bool := 0x80 ≤ b && b < 0xc0

/-- The least code point that needs as many bytes after the first one. -/
def least (more : Nat) : Nat :=
  match more with
  | 0 => 0
  | 1 => 0x80
  | 2 => 0x800
  | _ => 0x10000

def byteFront (b : UInt8) (rest : List UInt8) : Front :=
  match lead? b with
  | none => .illFormed .invalidLead 0
  | some (more, bits) =>
    let trail := rest.take more
    let code := trail.foldl (fun code t => code * 64 + (t.toNat - 0x80)) bits
    if trail.length < more then .cutOff .incompleteSequence
    else if !trail.all isTrail then .illFormed .invalidTrail more
    else if code < least more then .illFormed .invalidLength more
    else if (0xd800 ≤ code && code ≤ 0xdfff) || 0x10ffff < code then
      .illFormed .invalidCharacter more
    else accept code more

def unit (lowFirst : Bool) (a b : UInt8) : Nat :=
  if lowFirst then a.toNat + 256 * b.toNat else b.toNat + 256 * a.toNat

def unitFront (lowFirst : Bool) (a : UInt8) (rest : List UInt8) : Front :=
  match rest with
  | [] => .cutOff .incompleteUnit
  | b :: rest =>
    let high := unit lowFirst a b
    if 0xdc00 ≤ high && high ≤ 0xdfff then .illFormed .unexpectedLow 1
    else if 0xd800 ≤ high && high ≤ 0xdbff then
      match rest with
      | c :: d :: _ =>
        let low := unit lowFirst c d
        if 0xdc00 ≤ low && low ≤ 0xdfff then
          accept (0x10000 + (high - 0xd800) * 0x400 + (low - 0xdc00)) 3
        else .illFormed .expectedLow 3
      | _ => .cutOff .incompletePair
    else accept high 1

def front (form : Form) (b : UInt8) (rest : List UInt8) : Front :=
  match form with
  | .bytes => byteFront b rest
  | .units lowFirst => unitFront lowFirst b rest

def blockSize : Nat := 512

/-- Cut bytes into blocks. `room` is what is left of the current block. `earlier` are the blocks
    before it and `block` its characters so far, both reversed. A character that does not fit into
    what is left goes to the next block. -/
def takeIn (form : Form) (room : Nat) (earlier : List (List Char)) (block : List Char) :
    List UInt8 → Source
  | [] => ⟨(block.reverse :: earlier).reverse, none⟩
  | b :: rest =>
    match front form b rest with
    | .cutOff cause => ⟨(block.reverse :: earlier).reverse, some ⟨cause, []⟩⟩
    | .illFormed cause more =>
      if more < room then ⟨earlier.reverse, some ⟨cause, block.reverse⟩⟩
      else ⟨(block.reverse :: earlier).reverse, some ⟨cause, []⟩⟩
    | .character c more =>
      if more < room then takeIn form (room - 1 - more) earlier (c :: block) (rest.drop more)
      else takeIn form (blockSize - 1 - more) (block.reverse :: earlier) [c] (rest.drop more)
  termination_by bytes => bytes.length

def ofBytes (bytes : List UInt8) : Source :=
  match bytes with
  | 0xff :: 0xfe :: rest => takeIn (.units true) (blockSize - 2) [] [] rest
  | 0xfe :: 0xff :: rest => takeIn (.units false) (blockSize - 2) [] [] rest
  | 0xef :: 0xbb :: 0xbf :: rest => takeIn .bytes (blockSize - 3) [] [] rest
  | bytes => takeIn .bytes blockSize [] [] bytes

def size (s : Source) : Nat :=
  s.blocks.flatten.length + s.fault.elim 0 (·.hidden.length)

end Source

end ClassScript.Yaml
