import ClassScript.Number.Literal
import ClassScript.Text.Utf8
import ClassScript.Yaml.Place
import ClassScript.Yaml.Token

/-! # Anchors, tags and directives

What is said about a node before it: a name by which it can be referred to, and its type. What is
said about a document before it: the version it is written in, and handles for types.
-/

namespace ClassScript.Yaml.Property

/-! ## Anchors -/

def endsName (c : Char) : Bool :=
  isGap c || ['?', ':', ',', ']', '\x7d', '%', '@', '\x60'].contains c

def name : Reading String := do
  let start := (← get).mark.line
  Reading.skip
  let name ← Reading.takeWhile isNameCharacter
  if name.isEmpty || !endsName (← Reading.ahead 0) then Reading.fail start .missingName
  else return String.ofList name

/-! ## Tags -/

def isAddressCharacter (c : Char) : Bool :=
  isNameCharacter c || [';', '/', '?', ':', '@', '&', '=', '+', '$', ',', '.', '!', '~', '*', '\'',
    '(', ')', '[', ']'].contains c

def octet (start : Nat) : Reading UInt8 := do
  Reading.need 3
  let place ← get
  match place.rest with
  | '%' :: a :: b :: _ =>
    match Number.digit? 16 a, Number.digit? 16 b with
    | some high, some low =>
      set (place.skipRun ['%', a, b])
      return (16 * high + low).toUInt8
    | _, _ => Reading.fail start .missingOctet
  | _ => Reading.fail start .missingOctet

def trail (start : Nat) : (count : Nat) → Reading (List UInt8)
  | 0 => return []
  | count + 1 => do
    let b ← octet start
    if Source.isTrail b then return b :: (← trail start count)
    else Reading.fail start .escapedTrail

def escaped (start : Nat) : Reading (List Char) := do
  let b ← octet start
  match Source.lead? b with
  | none => Reading.fail start .escapedLead
  | some (more, _) => return Text.Utf8.decode (b :: (← trail start more))

def address (start : Nat) : (fuel : Nat) → List Char → Reading (List Char)
  | 0, text => return text
  | fuel + 1, text => do
    Reading.need 1
    let c ← Reading.ahead 0
    if c = '%' then
      let more ← escaped start
      address start fuel (more.reverse ++ text)
    else if isAddressCharacter c then
      Reading.skip
      address start fuel (c :: text)
    else return text

/-- Read the characters of a tag after its handle. If `known`, there may be none. -/
def suffix (start : Nat) (known : Bool) : Reading String := do
  let place ← get
  let text ← address start (place.size + 1) []
  if text.isEmpty && !known then Reading.fail start .missingAddress
  else return String.ofList text.reverse

/-- Read what may be a handle: a name after an exclamation mark. The answer tells too whether
    another mark follows, as it has to for a handle with a name. -/
def handle (start : Nat) : Reading (String × Bool) := do
  Reading.need 1
  if (← Reading.ahead 0) = '!' then
    Reading.skip
    let name ← Reading.takeWhile isNameCharacter
    let closed := (← Reading.ahead 0) = '!'
    if closed then Reading.skip
    return (String.ofList name, closed)
  else Reading.fail start .missingHandle

/-- Read a tag: written in full, with a handle, or alone. -/
def tag : Reading TokenKind := do
  Reading.need 2
  let place ← get
  let start := place.mark.line
  let tag ←
    if place.ahead 1 = '<' then do
      Reading.skip
      Reading.skip
      let text ← suffix start false
      if (← Reading.ahead 0) = '>' then
        Reading.skip
        pure (TokenKind.tag "" text)
      else Reading.fail start .missingBracket
    else do
      let (name, closed) ← handle start
      if closed then pure (.tag s!"!{name}!" (← suffix start false))
      else
        let text := name ++ (← suffix start true)
        pure (if text.isEmpty then .tag "" "!" else .tag "!" text)
  Reading.need 1
  if isGap (← Reading.ahead 0) then return tag else Reading.fail start .missingGap

/-! ## Directives -/

def versionPart (start : Nat) : Reading Nat := do
  let digits ← Reading.takeAtMost 2 Number.isDigit
  if digits.isEmpty then Reading.fail start .missingVersion
  else if Number.isDigit (← Reading.ahead 0) then Reading.fail start .longVersion
  else return Number.decimalValue digits

def version (start : Nat) : Reading TokenKind := do
  let _ ← Reading.takeWhile isBlank
  let major ← versionPart start
  if (← Reading.ahead 0) = '.' then
    Reading.skip
    return .version major (← versionPart start)
  else Reading.fail start .missingPoint

def definition (start : Nat) : Reading TokenKind := do
  let _ ← Reading.takeWhile isBlank
  let (name, closed) ← handle start
  if !closed && !name.isEmpty then Reading.fail start .missingHandle
  Reading.need 1
  if !isBlank (← Reading.ahead 0) then Reading.fail start .missingBlank
  let _ ← Reading.takeWhile isBlank
  let meaning ← suffix start false
  Reading.need 1
  if isGap (← Reading.ahead 0) then
    return .handle ⟨if closed then s!"!{name}!" else "!", meaning⟩
  else Reading.fail start .missingGap

def directive : Reading TokenKind := do
  let start := (← get).mark.line
  Reading.skip
  let name ← Reading.takeWhile isNameCharacter
  if name.isEmpty then Reading.fail start .missingDirective
  if !isGap (← Reading.ahead 0) then Reading.fail start .invalidDirective
  let directive ←
    match String.ofList name with
    | "YAML" => version start
    | "TAG" => definition start
    | _ => Reading.fail start .unknownDirective
  let _ ← Reading.takeWhile isBlank
  if (← Reading.ahead 0) = '#' then Reading.skipLine
  if endsLine (← Reading.ahead 0) then
    if isBreak (← Reading.ahead 0) then Reading.need 2
    modify Place.skipBreak
    return directive
  else Reading.fail start .missingLineEnd

end ClassScript.Yaml.Property
