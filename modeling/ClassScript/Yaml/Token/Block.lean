import ClassScript.Yaml.Place

/-! # Block scalars

A scalar may be written as a block of indented lines. After a bar the line breaks are kept, after an
angle bracket lines that are not set off are joined. Marks after that tell how deep the block is
indented and what happens to the line breaks at its end.
-/

namespace ClassScript.Yaml.Block

inductive Chomping
  /-- All are dropped. -/
  | strip
  /-- One is kept. -/
  | clip
  /-- All are kept. -/
  | keep
  deriving DecidableEq, Repr, Inhabited

structure Header where
  chomping : Chomping := .clip
  /-- How much deeper than its surroundings the block is indented; zero when its first line
      decides. -/
  increment : Nat := 0
  deriving DecidableEq, Repr, Inhabited

def chomping? (c : Char) : Option Chomping :=
  if c = '+' then some .keep else if c = '-' then some .strip else none

def takeChomping (header : Header) : Reading Header := do
  match chomping? (← Reading.ahead 0) with
  | none => return header
  | some chomping =>
    Reading.skip
    return { header with chomping }

def takeIncrement (start : Nat) (header : Header) : Reading Header := do
  let c ← Reading.ahead 0
  if c = '0' then Reading.fail start .zeroIndentation
  else if '1' ≤ c && c ≤ '9' then
    Reading.skip
    return { header with increment := c.toNat - '0'.toNat }
  else return header

def takeHeader (start : Nat) : Reading Header := do
  Reading.need 1
  let header ←
    if (chomping? (← Reading.ahead 0)).isSome then do
      let header ← takeChomping {}
      Reading.need 1
      takeIncrement start header
    else do
      let header ← takeIncrement start {}
      Reading.need 1
      takeChomping header
  let _ ← Reading.takeWhile isBlank
  if (← Reading.ahead 0) = '#' then Reading.skipLine
  if endsLine (← Reading.ahead 0) then
    if isBreak (← Reading.ahead 0) then Reading.need 2
    modify Place.skipBreak
    return header
  else Reading.fail start .missingLineEnd

/-- Pass the indentation of a line, which goes to column `indent`, or as far as it can if that is
    zero. -/
def skipIndent (indent : Nat) : Reading Unit := do
  let place ← get
  let limit := if indent = 0 then place.size else indent - place.mark.column
  let _ ← Reading.takeAtMost limit (· = ' ')

/-- Take empty lines and pass the indentation of the line after them. `deepest` is the deepest
    indentation so far, and `breaks` are the line breaks so far. -/
def emptyLines (indent start : Nat) : (fuel deepest : Nat) → (breaks : List Char) →
    Reading (Nat × List Char)
  | 0, deepest, breaks => return (deepest, breaks)
  | fuel + 1, deepest, breaks => do
    Reading.need 1
    skipIndent indent
    let place ← get
    let deepest := max deepest place.mark.column
    if (indent = 0 || place.mark.column < indent) && place.ahead 0 = '\t' then
      Reading.fail start .tabInBlock
    else if isBreak (place.ahead 0) then
      Reading.need 2
      let line ← Reading.takeBreak
      emptyLines indent start fuel deepest (breaks ++ line)
    else return (deepest, breaks)

structure Progress where
  /-- The text so far, reversed. -/
  text : List Char
  /-- The line break after it. -/
  last : List Char
  /-- The breaks of the empty lines after that. -/
  empty : List Char
  /-- Whether the last line begins with a blank. -/
  setOff : Bool
  deriving DecidableEq, Repr, Inhabited

def Progress.joined (p : Progress) (literal setOff : Bool) : List Char :=
  if !literal && !p.setOff && !setOff && p.last = ['\n'] then
    (if p.empty.isEmpty then [' '] else p.empty.reverse) ++ p.text
  else p.empty.reverse ++ p.last.reverse ++ p.text

def lines (literal : Bool) (indent start : Nat) : (fuel : Nat) → Progress → Reading Progress
  | 0, progress => return progress
  | fuel + 1, progress => do
    let place ← get
    if place.mark.column = indent && place.ahead 0 ≠ nothing then
      let setOff := isBlank (place.ahead 0)
      let line ← Reading.takeWhile (!endsLine ·)
      Reading.need 2
      let last ← Reading.takeBreak
      let (_, empty) ← emptyLines indent start place.size 0 []
      lines literal indent start fuel
        ⟨line.reverse ++ progress.joined literal setOff, last, empty, setOff⟩
    else return progress

/-- Read a block scalar. Its lines are indented to column `floor` at least. -/
def read (floor : Nat) : Reading String := do
  let place ← get
  let start := place.mark.line
  let fuel := place.size + 1
  Reading.skip
  let header ← takeHeader start
  let announced := if header.increment = 0 then 0 else header.increment + (floor - 1)
  let (deepest, empty) ← emptyLines announced start fuel 0 []
  let indent := if announced = 0 then max (max deepest floor) 1 else announced
  Reading.need 1
  let p ← lines (place.ahead 0 = '|') indent start fuel ⟨[], [], empty, false⟩
  let tail :=
    match header.chomping with
    | .strip => []
    | .clip => p.last
    | .keep => p.last ++ p.empty
  return String.ofList (p.text.reverse ++ tail)

end ClassScript.Yaml.Block
