import ClassScript.Yaml.Source

/-! # Places in a text

A place is what is left of a text, with the line and the column where that begins. A reading goes
from one place to another, or stops with a problem. Before it looks ahead it says how far (`need`):
that is when blocks of the text are taken in, and when a fault of the text shows. A search for
comments does not stop at a fault; the fault is noticed (`Place.noticed`) and reported when there is
time for it.

If the characters at hand begin with a byte order mark when a block is taken in, then up to the next
block the first character of each line does not count, whatever it is.
-/

namespace ClassScript.Yaml

/-! ## Kinds of characters -/

def isBlank (c : Char) : Bool := c = ' ' || c = '\t'

def isBreak (c : Char) : Bool :=
  c = '\n' || c = '\x0d' || c = Char.ofNat 0x85 || c = Char.ofNat 0x2028 || c = Char.ofNat 0x2029

def isWideBreak (c : Char) : Bool := isBreak c && 1 < c.utf8Size

def nothing : Char := '\x00'

def byteOrderMark : Char := Char.ofNat 0xfeff

def endsLine (c : Char) : Bool := isBreak c || c = nothing

def isGap (c : Char) : Bool := isBlank c || endsLine c

def isNameCharacter (c : Char) : Bool :=
  ('0' ≤ c && c ≤ '9') || ('A' ≤ c && c ≤ 'Z') || ('a' ≤ c && c ≤ 'z') || c = '_' || c = '-'

/-! ## Places -/

structure Mark where
  index : Nat
  line : Nat
  column : Nat
  deriving DecidableEq, Repr, Inhabited

structure Place where
  /-- The characters at hand. -/
  rest : List Char
  /-- The blocks after them. -/
  later : List (List Char)
  /-- What is wrong after that. -/
  fault : Option Fault
  /-- What was seen to be wrong, and not reported. -/
  noticed : Option Cause
  /-- The first character at hand when the last block was taken in. -/
  front : Char
  mark : Mark
  /-- Whether a line break was passed and nothing but blanks since. -/
  fresh : Bool
  /-- How many characters the whole text has; no loop through it takes more rounds. -/
  size : Nat
  deriving DecidableEq, Repr, Inhabited

namespace Place

def ofSource (source : Source) : Place where
  rest := []
  later := source.blocks
  fault := source.fault
  noticed := none
  front := nothing
  mark := ⟨0, 0, 0⟩
  fresh := false
  size := source.size

/-- The character that stands `k` characters ahead. -/
def ahead (p : Place) (k : Nat) : Char := p.rest.getD k nothing

/-- Whether there are `count` characters, at least. -/
def has (count : Nat) (rest : List Char) : Bool := !(rest.drop (count - 1)).isEmpty

/-- Take in blocks until there are `count` characters at hand, or no more blocks. -/
def takeBlocks (count : Nat) (rest : List Char) : (later : List (List Char)) →
    List Char × List (List Char)
  | [] => (rest, [])
  | block :: later =>
    if has count rest then (rest, block :: later) else takeBlocks count (rest ++ block) later

/-- Have `count` characters at hand. If the text has no more, it is taken in again and ends with
    nothing, once more each time. The answer tells too what is wrong with the text, if that prevents
    it; the characters before the fault are at hand then. -/
def provide (p : Place) (count : Nat) : Place × Option Cause :=
  if has count p.rest then (p, none)
  else
    let (rest, later) := takeBlocks count p.rest p.later
    let supplied := fun (rest : List Char) (fault : Option Fault) =>
      { p with rest, later, fault, front := rest.headD nothing }
    if has count rest then (supplied rest p.fault, none)
    else match p.fault with
      | none => (supplied (rest ++ [nothing]) none, none)
      | some fault =>
        (supplied (rest ++ fault.hidden) (some { fault with hidden := [] }), some fault.cause)

def atLineStart (p : Place) : Bool := p.mark.column = 0

def atTriple (p : Place) (c : Char) : Bool :=
  p.atLineStart && p.ahead 0 = c && p.ahead 1 = c && p.ahead 2 = c && isGap (p.ahead 3)

def atDocumentMark (p : Place) : Bool := p.atTriple '-' || p.atTriple '.'

def skip (p : Place) : Place :=
  match p.rest with
  | [] => p
  | c :: rest =>
    { p with
      rest
      mark := ⟨p.mark.index + 1, p.mark.line, p.mark.column + 1⟩
      fresh := p.fresh && isBlank c }

def skipRun (p : Place) (run : List Char) : Place :=
  { p with
    rest := p.rest.drop run.length
    mark := ⟨p.mark.index + run.length, p.mark.line, p.mark.column + run.length⟩
    fresh := p.fresh && run.all isBlank }

def skipBreak (p : Place) : Place :=
  let after := fun (rest : List Char) (size : Nat) =>
    { p with rest, mark := ⟨p.mark.index + size, p.mark.line + 1, 0⟩, fresh := true }
  match p.rest with
  | '\x0d' :: '\n' :: rest => after rest 2
  | c :: rest => if isBreak c then after rest 1 else p
  | [] => p

/-- What the line break at a place stands for. Some are kept, all others are alike. -/
def breakText (p : Place) : List Char :=
  match p.rest with
  | c :: _ =>
    if c = Char.ofNat 0x2028 || c = Char.ofNat 0x2029 then [c]
    else if isBreak c then ['\n']
    else []
  | [] => []

/-- The place after blanks and line breaks, at most `count` characters of them. -/
def skipGap : (count : Nat) → Place → Place
  | 0, p => p
  | count + 1, p =>
    if isBreak (p.ahead 0) then skipGap count p.skipBreak
    else if isBlank (p.ahead 0) then skipGap count p.skip
    else p

end Place

/-! ## Readings -/

abbrev Reading := StateT Place (Except Problem)

namespace Reading

/-- Fail within a token that begins on line `start`. -/
def fail {α : Type} (start : Nat) (cause : Cause) : Reading α := do
  throw (.inToken start (← get).mark.line cause)

/-- Have the next `count` characters at hand. Something that is wrong with them is a problem. -/
def need (count : Nat) : Reading Unit := do
  match (← get).provide count with
  | (place, none) => set place
  | (_, some cause) => throw { cause }

/-- Have the next `count` characters at hand. Something that is wrong with them is noticed, and the
    answer tells whether nothing is. -/
def look (count : Nat) : Reading Bool := do
  match (← get).provide count with
  | (place, none) =>
    set place
    return true
  | (place, some cause) =>
    set { place with noticed := some cause }
    return false

/-- The character that stands `k` characters ahead. -/
def ahead (k : Nat) : Reading Char := do return (← get).ahead k

def skip : Reading Unit := modify Place.skip

/-- Take characters of a line as long as they are of a kind, up to a limit, and have the next one at
    hand; `taken` are those taken so far, reversed. -/
def takeSome (kind : Char → Bool) : (limit : Nat) → (taken : List Char) → Reading (List Char)
  | 0, taken => do
    need 1
    return taken.reverse
  | limit + 1, taken => do
    need 1
    let c ← ahead 0
    if kind c then
      skip
      takeSome kind limit (c :: taken)
    else return taken.reverse

/-- Take characters of a line as long as they are of a kind, up to a limit, and have the next one at
    hand. -/
def takeAtMost (limit : Nat) (kind : Char → Bool) : Reading (List Char) := takeSome kind limit []

def takeWhile (kind : Char → Bool) : Reading (List Char) := do takeAtMost (← get).size kind

def skipLine : Reading Unit := do
  let _ ← takeWhile (!endsLine ·)

def takeBreak : Reading (List Char) := do
  let place ← get
  set place.skipBreak
  return place.breakText

/-! ## Between tokens -/

def commentReach : Nat := 512

/-- Look from the `k`-th character ahead for one that is not of a kind, among the next `reach`. The
    answer tells how far ahead it is. -/
def lookPast (kind : Char → Bool) : (reach k : Nat) → Reading (Option Nat)
  | 0, _ => return none
  | reach + 1, k => do
    if ← look (k + 1) then
      if kind (← ahead k) then lookPast kind reach (k + 1) else return some k
    else return none

def lineComment : Reading Unit := do
  if !(← get).fresh then
    match ← lookPast isBlank commentReach 0 with
    | none => return ()
    | some k => if (← ahead k) = '#' then skipLine

/-- Look from the end of a line for a comment on one of the next lines, with only blanks and empty
    lines before it. The answer tells how far ahead it is. None is found after a line break that has
    more than one byte, and one character more is looked at there. -/
def nextComment : Reading (Option Nat) := do
  let found ←
    if isWideBreak (← ahead 0) then pure (some 0)
    else lookPast (fun c => isBlank c || (isBreak c && !isWideBreak c)) (commentReach - 1) 1
  match found with
  | none => return none
  | some k =>
    let c ← ahead k
    if isWideBreak c && k + 1 < commentReach then
      let _ ← look (k + 2)
    return if c = '#' then some k else none

/-- Pass a comment and the comments on the lines after it, with the blanks before them; `fuel`
    bounds their number. -/
def comments : (fuel : Nat) → Reading Unit
  | 0 => return ()
  | fuel + 1 => do
    skipLine
    match ← nextComment with
    | none => return ()
    | some k =>
      modify (Place.skipGap k)
      comments fuel

/-- Pass everything up to the next token. Tabs count as blanks only where no key may begin; a key
    may begin on a new line, outside of brackets. The answer is whether one may begin now. -/
def toToken (flow : Bool) : (fuel : Nat) → (keyAllowed : Bool) → Reading Bool
  | 0, keyAllowed => return keyAllowed
  | fuel + 1, keyAllowed => do
    need 1
    let place ← get
    if place.atLineStart && place.front = byteOrderMark then skip
    let _ ← takeWhile fun c => c = ' ' || (c = '\t' && (flow || !keyAllowed))
    if (← ahead 0) = '#' then comments place.size
    if isBreak (← ahead 0) then
      need 2
      modify Place.skipBreak
      toToken flow fuel (keyAllowed || !flow)
    else return keyAllowed

end Reading

end ClassScript.Yaml
