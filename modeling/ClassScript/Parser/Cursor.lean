import ClassScript.Diagnostic
import ClassScript.Token

/-! # The parser's place in a token list

A cursor stands between the tokens already taken and those to come, and collects the diagnostics.
A parser is a step from one cursor to another. It never rejects its input: what it cannot use it
reports and passes over. The only way for a parser to give no answer is a `loop` that takes no
token in some round, or a recursion deeper than it was granted; both are bounded by the number of
tokens ahead.
-/

namespace ClassScript

structure Cursor where
  /-- The tokens to come. -/
  rest : List Token
  /-- The token taken last. -/
  last : Option Token := none
  /-- What there was to complain about, the oldest complaint first. -/
  diagnostics : List Diagnostic := []
  deriving DecidableEq, Repr

namespace Cursor

/-- The token that comes next; after the last one there is always an end token. -/
def next (c : Cursor) : Token := c.rest.head?.getD .missing

def kind (c : Cursor) : Kind := c.next.kind

def advance (c : Cursor) : Cursor :=
  match c.rest with
  | [] => c
  | t :: rest => { c with rest, last := some t }

/-- Take all tokens up to the first one that is not of the given kinds. -/
def skipWhile (skipped : Kind → Bool) (c : Cursor) : Cursor :=
  { c with
    rest := c.rest.dropWhile fun t => skipped t.kind
    last := (c.rest.takeWhile fun t => skipped t.kind).getLast?.or c.last }

/-- Where the token taken last ends; before the first token, where that one begins. -/
def lastEnd (c : Cursor) : Position :=
  match c.last with
  | some t => t.span.last
  | none => c.next.span.first

def complain (c : Cursor) (complaint : Complaint) (span : Span) : Cursor :=
  { c with diagnostics := c.diagnostics ++ [{ complaint, span }] }

end Cursor

abbrev Parser := StateT Cursor Option

namespace Parser

def peek : Parser Token := do return (← get).next

def peekKind : Parser Kind := do return (← get).kind

def advance : Parser Token := do
  let c ← get
  set c.advance
  return c.next

def complain (complaint : Complaint) (span : Span) : Parser Unit :=
  modify (·.complain complaint span)

/-- Take the next token if it is of the given kind, and complain otherwise. Either way the token is
    returned, with whether it was taken. -/
def expect (kind : Kind) : Parser (Token × Bool) := do
  let t ← peek
  if t.kind = kind then
    let _ ← advance
    return (t, true)
  else
    complain (.expectedKind kind t.kind) t.span
    return (t, false)

def require (kind : Kind) : Parser Unit := do
  let _ ← expect kind

def skipNewlines : Parser Unit := modify (·.skipWhile (· = .newline))

def isSeparator (kind : Kind) : Bool := kind = .newline || kind = .semicolon

def skipSeparators : Parser Unit := modify (·.skipWhile isSeparator)

def isBoundary (kind : Kind) : Bool :=
  match kind with
  | .endOfFile | .newline | .semicolon | .rightBrace | .ifWord | .whileWord | .doWord | .forWord
  | .functionWord | .classWord => true
  | kind => kind.isTypeWord || kind.isModifier

def synchronize : Parser Unit := do
  modify (·.skipWhile fun kind => !isBoundary kind)
  if isSeparator (← peekKind) then
    let _ ← advance

def spanFrom (first : Position) : Parser Span := do return ⟨first, (← get).lastEnd⟩

/-- Do `body` again and again as long as the next token asks for more, `rounds` times at most. -/
def loopWithin {α : Type} (more : Kind → Bool) (body : α → Parser α) : Nat → α → Parser α
  | 0, _ => failure
  | rounds + 1, a => do
    if more (← peekKind) then
      let a ← body a
      loopWithin more body rounds a
    else
      return a

/-- Do `body` again and again as long as the next token asks for more. A round that takes a token
    uses up one of the tokens ahead, so that these bound the rounds. -/
def loop {α : Type} (more : Kind → Bool) (body : α → Parser α) (a : α) : Parser α := do
  loopWithin more body ((← get).rest.length + 1) a

end Parser

end ClassScript
