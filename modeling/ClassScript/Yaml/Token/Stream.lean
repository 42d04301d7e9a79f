import ClassScript.Yaml.Token.Block
import ClassScript.Yaml.Token.Plain
import ClassScript.Yaml.Token.Property
import ClassScript.Yaml.Token.Quoted

/-! # Cutting a text into tokens

Indentation decides what belongs together. A collection that is written by indentation has no mark
where it begins, and a key has none either: a key is recognised by the colon after it. So whatever
could be a key is kept in mind until its line ends, and when the colon comes the missing tokens are
put in front of it.

A token is handed on when two more tokens are known, unless it is held back because a key could
begin with it. If something is wrong with the text, the tokens that were not handed on before are
not seen at all.
-/

namespace ClassScript.Yaml

structure KeyCandidate where
  /-- The number of its first token. -/
  number : Nat
  mark : Mark
  /-- Whether it has to be a key, by its indentation. -/
  required : Bool := false
  /-- Whether it was not settled yet. -/
  unsettled : Bool := false
  deriving DecidableEq, Repr, Inhabited

inductive KeyState
  /-- A colon here would make it a key. -/
  | possible
  /-- It is a key no more, although it had to be one. -/
  | missed
  | over
  deriving DecidableEq, Repr, Inhabited

namespace KeyCandidate

def reach : Nat := 1024

/-- What a candidate is at a place. A key ends on the line where it begins. -/
def state (k : KeyCandidate) (mark : Mark) : KeyState :=
  if !k.unsettled then .over
  else if k.mark.line = mark.line && mark.index ≤ k.mark.index + reach then .possible
  else if k.required then .missed
  else .over

def problem (k : KeyCandidate) (mark : Mark) : Problem :=
  .inToken k.mark.line mark.line .missingColon

end KeyCandidate

structure Scanning where
  place : Place
  /-- The tokens that were found and not handed on. -/
  pending : List Token
  /-- How many tokens were handed on. -/
  handedOn : Nat
  /-- The columns of the collections written by indentation, the innermost first. -/
  columns : List Nat
  /-- The latest candidate for a key within the innermost brackets. -/
  candidate : KeyCandidate
  /-- The latest candidates around those brackets, from the inside out. -/
  outer : List KeyCandidate
  /-- The numbers of tokens that are held back. Each is with the number of brackets around it, whose
      latest candidate decides when it is let go. -/
  held : List (Nat × Nat)
  /-- Whether a key may begin here. -/
  keyAllowed : Bool
  deriving DecidableEq, Repr, Inhabited

namespace Scanning

def ofSource (source : Source) : Scanning where
  place := .ofSource source
  pending := [{ kind := .streamStart, line := 0 }]
  handedOn := 0
  columns := []
  candidate := { number := 0, mark := ⟨0, 0, 0⟩ }
  outer := []
  held := []
  keyAllowed := true

def inFlow (s : Scanning) : Bool := !s.outer.isEmpty

def nextNumber (s : Scanning) : Nat := s.handedOn + s.pending.length

def floor (s : Scanning) : Nat :=
  match s.columns with
  | [] => 0
  | column :: _ => column + 1

def depthLimit : Nat := 10000

def push (s : Scanning) (kind : TokenKind) (line : Nat) : Scanning :=
  { s with pending := s.pending ++ [{ kind, line }] }

def insert (s : Scanning) (number : Nat) (kind : TokenKind) (line : Nat) : Scanning :=
  if number < s.handedOn then s.push kind line
  else
    let (before, after) := s.pending.splitAt (number - s.handedOn)
    { s with pending := before ++ { kind, line } :: after }

def letGo (s : Scanning) (number : Nat) : Scanning :=
  { s with held := s.held.filter (·.1 ≠ number) }

def settle (s : Scanning) : Scanning :=
  { s with candidate := { s.candidate with unsettled := false } }

/-- End the collections that are indented to column `limit` or deeper, on a line. -/
def closeBlocks (s : Scanning) (limit line : Nat) : Scanning :=
  if s.inFlow then s
  else
    let closed := s.columns.takeWhile (limit ≤ ·)
    { s with
      columns := s.columns.dropWhile (limit ≤ ·)
      pending := s.pending ++ closed.map fun _ => { kind := .blockEnd, line } }

end Scanning

abbrev Scan := StateT Scanning (Except Problem)

namespace Scan

def read {α : Type} (reading : Reading α) : Scan α := do
  let s ← get
  match reading s.place with
  | .error problem => throw problem
  | .ok (a, place) =>
    set { s with place }
    return a

def fail {α : Type} (cause : Cause) : Scan α := do
  let line := (← get).place.mark.line
  throw (.inToken line line cause)

def allowKey (allowed : Bool) : Scan Unit :=
  modify fun s => { s with keyAllowed := allowed }

/-- Begin a collection at a column, if it is deeper than the one around it. Its first token goes
    before the one with a number, or after all tokens. -/
def openBlock (column : Nat) (number : Option Nat) (kind : TokenKind) (line : Nat) : Scan Unit := do
  let s ← get
  if !s.inFlow && s.floor ≤ column then
    if Scanning.depthLimit ≤ s.columns.length then fail .tooDeep
    let s := { s with columns := column :: s.columns }
    set (match number with
      | none => s.push kind line
      | some number => s.insert number kind line)

/-! ## Keys -/

def dropCandidate : Scan Unit := do
  let s ← get
  if s.candidate.unsettled then
    if s.candidate.required then throw (s.candidate.problem s.place.mark)
    set (s.settle.letGo s.candidate.number)

def saveCandidate : Scan Unit := do
  let s ← get
  if s.keyAllowed then
    dropCandidate
    modify fun s =>
      { s with
        candidate :=
          { number := s.nextNumber
            mark := s.place.mark
            required := !s.inFlow && s.floor = s.place.mark.column + 1
            unsettled := true }
        held := (s.nextNumber, s.outer.length) :: s.held }

/-! ## Marks -/

def mark (kind : TokenKind) : Scan Unit := do
  let line := (← get).place.mark.line
  read Reading.skip
  modify (·.push kind line)

def flowStart (kind : TokenKind) : Scan Unit := do
  saveCandidate
  if Scanning.depthLimit ≤ (← get).outer.length then fail .tooDeep
  modify fun s =>
    { s with
      candidate := { number := s.nextNumber, mark := s.place.mark }
      outer := s.candidate :: s.outer }
  allowKey true
  mark kind

def flowEnd (kind : TokenKind) : Scan Unit := do
  dropCandidate
  modify fun s =>
    match s.outer with
    | [] => s
    | candidate :: outer => { s.letGo s.candidate.number with candidate, outer }
  allowKey false
  mark kind

def flowEntry : Scan Unit := do
  dropCandidate
  allowKey true
  mark .flowEntry

def blockEntry : Scan Unit := do
  let s ← get
  if !s.inFlow && !s.keyAllowed then fail .misplacedEntry
  openBlock s.place.mark.column none .blockSequenceStart s.place.mark.line
  dropCandidate
  allowKey true
  mark .blockEntry

def explicitKey : Scan Unit := do
  let s ← get
  if !s.inFlow && !s.keyAllowed then fail .misplacedKey
  openBlock s.place.mark.column none .blockMappingStart s.place.mark.line
  dropCandidate
  allowKey (!s.inFlow)
  mark .key

def simpleValue : Scan Unit := do
  let key := (← get).candidate
  modify (·.insert key.number .key key.mark.line)
  openBlock key.mark.column (some key.number) .blockMappingStart key.mark.line
  modify fun s => s.settle.letGo key.number
  allowKey false
  mark .value

def explicitValue : Scan Unit := do
  let s ← get
  if !s.inFlow && !s.keyAllowed then fail .misplacedValue
  openBlock s.place.mark.column none .blockMappingStart s.place.mark.line
  allowKey (!s.inFlow)
  mark .value

def value : Scan Unit := do
  let s ← get
  match s.candidate.state s.place.mark with
  | .possible => simpleValue
  | .missed => throw (s.candidate.problem s.place.mark)
  | .over =>
    set s.settle
    explicitValue

/-! ## Other tokens -/

def content (reading : Reading TokenKind) : Scan Unit := do
  saveCandidate
  allowKey false
  let line := (← get).place.mark.line
  let kind ← read reading
  modify (·.push kind line)

/-- Take a plain scalar. A key may follow if its line ended. -/
def plain : Scan Unit := do
  saveCandidate
  let s ← get
  let (text, broken) ← read (Plain.read s.inFlow s.floor)
  allowKey broken
  modify (·.push (.scalar text true) s.place.mark.line)

def block : Scan Unit := do
  dropCandidate
  allowKey true
  let s ← get
  let text ← read (Block.read s.floor)
  modify (·.push (.scalar text false) s.place.mark.line)

def closeAll : Scan Unit := do
  modify fun s => s.closeBlocks 0 s.place.mark.line
  dropCandidate
  allowKey false

def documentMark (kind : TokenKind) : Scan Unit := do
  closeAll
  let s ← get
  set { s with place := s.place.skipRun (s.place.rest.take 3) }
  modify (·.push kind s.place.mark.line)

def directive : Scan Unit := do
  closeAll
  let line := (← get).place.mark.line
  let kind ← read Property.directive
  modify (·.push kind line)

def streamEnd : Scan Unit := do
  modify fun s =>
    let m := s.place.mark
    if m.column = 0 then s
    else { s with place := { s.place with mark := ⟨m.index, m.line + 1, 0⟩ } }
  closeAll
  modify fun s => s.push .streamEnd s.place.mark.line

/-- Whether a plain scalar begins with a character, `d` being the one after it. -/
def beginsPlain (flow : Bool) (c d : Char) : Bool :=
  if c = '-' then !isBlank d
  else if c = '?' || c = ':' then !flow && !isGap d
  else !(isGap c || [',', '[', ']', '\x7b', '\x7d', '#', '&', '*', '!', '|', '>', '\'', '"', '%',
    '@', '\x60'].contains c)

def token : Scan Unit := do
  let s ← get
  let c := s.place.ahead 0
  let d := s.place.ahead 1
  match c with
  | '[' => flowStart .flowSequenceStart
  | '\x7b' => flowStart .flowMappingStart
  | ']' => flowEnd .flowSequenceEnd
  | '\x7d' => flowEnd .flowMappingEnd
  | ',' => flowEntry
  | '*' => content do return .reference (← Property.name)
  | '&' => content do return .anchor (← Property.name)
  | '!' => content Property.tag
  | '\'' | '"' => content do return .scalar (← Quoted.read) false
  | _ =>
    if c = '-' && isGap d then blockEntry
    else if c = '?' && (s.inFlow || isGap d) then explicitKey
    else if c = ':' && (s.inFlow || isGap d) then value
    else if (c = '|' || c = '>') && !s.inFlow then block
    else if beginsPlain s.inFlow c d then plain
    else fail .noToken

/-- Take one more token, and all that are put in front of it. A collection ends on the line of its
    last token. -/
def next : Scan Unit := do
  let s ← get
  let keyAllowed ← read (Reading.toToken s.inFlow (s.place.size + 1) s.keyAllowed)
  allowKey keyAllowed
  modify (·.closeBlocks ((← get).place.mark.column + 1) s.place.mark.line)
  read (Reading.need 4)
  let place := (← get).place
  if place.ahead 0 = nothing then streamEnd
  else if place.atLineStart && place.ahead 0 = '%' then directive
  else if place.atTriple '-' then documentMark .documentStart
  else if place.atTriple '.' then documentMark .documentEnd
  else
    token
    if (← get).pending.getLast?.all (·.kind ≠ .blockEntry) then read Reading.lineComment

end Scan

namespace TokenStream

def guard? (s : Scanning) : Option KeyCandidate := do
  let depth ← s.held.lookup s.handedOn
  guard (depth ≤ s.outer.length)
  (s.candidate :: s.outer)[s.outer.length - depth]?

/-- Cut a text into tokens; `found` are those handed on, reversed. -/
def collect : (fuel : Nat) → Scanning → (found : List Token) → TokenStream
  | 0, _, found => ⟨found.reverse, none⟩
  | fuel + 1, s, found =>
    let more := fun (_ : Unit) =>
      match Scan.next s with
      | .error problem => ⟨found.reverse, some problem⟩
      | .ok (_, s) => collect fuel s found
    match s.pending with
    | first :: second :: third :: rest =>
      let key? := guard? s
      match key?.elim .over (·.state s.place.mark) with
      | .possible => more ()
      | .missed => ⟨found.reverse, key?.map (·.problem s.place.mark)⟩
      | .over =>
        let first := { first with noticed := s.place.noticed }
        if first.kind = .streamEnd then ⟨(first :: found).reverse, none⟩
        else
          collect fuel
            { s with pending := second :: third :: rest, handedOn := s.handedOn + 1 }
            (first :: found)
    | _ => more ()

/-- The tokens of a text. Each character makes one step and four tokens at most, and so does the
    end. -/
def ofSource (source : Source) : TokenStream :=
  collect (8 * source.size + 16) (.ofSource source) []

end TokenStream

end ClassScript.Yaml
