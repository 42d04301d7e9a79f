import ClassScript.Text.Digit
import ClassScript.Text.Letter
import ClassScript.Text.Utf8
import ClassScript.Token.Kind

/-! # Pieces of a source

A source is any sequence of bytes. It is cut into pieces that tile it: blanks, comments and
tokens. Every piece takes at least one byte, so the cut ends, and putting the pieces together again
gives the source back (`bytes_cut`). Which piece comes next depends on the bytes ahead alone.
-/

namespace ClassScript

def byte (c : Char) : UInt8 := UInt8.ofNat c.toNat

inductive Form
  /-- Spaces, tabs and carriage returns. -/
  | blank
  /-- From two slashes up to the end of the line. -/
  | lineComment
  /-- From a slash and a star up to a star and a slash; an open one runs to the end. -/
  | blockComment (closed : Bool)
  /-- Anything that the parser gets to see. -/
  | token (kind : Kind)
  deriving DecidableEq, Repr

structure Piece where
  form : Form
  bytes : List UInt8
  deriving DecidableEq, Repr

namespace Piece

/-! ## Classes of bytes -/

def isBlank (b : UInt8) : Bool := b = byte ' ' || b = byte '\t' || b = byte '\x0d'

def isDigit (b : UInt8) : Bool := byte '0' ≤ b && b ≤ byte '9'

def isSign (b : UInt8) : Bool := b = byte '+' || b = byte '-'

def isExponentMark (b : UInt8) : Bool := b = byte 'e' || b = byte 'E'

def beginsWord (c : Char) : Bool := c = '_' || Text.isLetter c

def continuesWord (c : Char) : Bool := c = '_' || Text.isLetter c || Text.isDecimalDigit c

/-! ## Lengths of what lies ahead -/

def digits (bytes : List UInt8) : Nat := (bytes.takeWhile isDigit).length

/-- The length of a fraction: a point and at least one digit. -/
def fraction : List UInt8 → Nat
  | point :: d :: rest => if point = byte '.' && isDigit d then 1 + digits (d :: rest) else 0
  | _ => 0

/-- The length of an exponent: its letter, and then digits or a sign. Nothing needs to follow a
    sign, so an exponent may lack its digits. -/
def exponent : List UInt8 → Nat
  | mark :: next :: rest =>
    if isExponentMark mark then
      if isDigit next then 1 + digits (next :: rest)
      else if isSign next then 2 + digits rest
      else 0
    else 0
  | _ => 0

/-- The kind of a number literal and its length: with a fraction or an exponent it is a double. -/
def number (bytes : List UInt8) : Kind × Nat :=
  let whole := digits bytes
  let part := fraction (bytes.drop whole)
  let power := exponent (bytes.drop (whole + part))
  (if part + power = 0 then .integer else .double, whole + part + power)

def word : List UInt8 → Nat
  | [] => 0
  | b :: rest =>
    match Text.Utf8.front b rest with
    | .character c more => if continuesWord c then 1 + more + word (rest.drop more) else 0
    | .illFormed _ => 0
  termination_by bytes => bytes.length

def comment : List UInt8 → Bool × Nat
  | [] => (false, 0)
  | b :: rest =>
    if b = byte '*' && rest.head? = some (byte '/') then (true, 2)
    else let (closed, n) := comment rest; (closed, n + 1)

/-! ## Operators and marks -/

def pairs : List (Char × Char × Kind) :=
  [('+', '+', .increment), ('+', '=', .plusAssign), ('-', '-', .decrement),
    ('-', '=', .minusAssign), ('*', '=', .starAssign), ('/', '=', .slashAssign),
    ('^', '=', .caretAssign), ('=', '=', .equals), ('<', '=', .lessEquals),
    ('>', '=', .greaterEquals), ('&', '&', .andAnd), ('|', '|', .orOr)]

def singles : List (Char × Kind) :=
  [('\n', .newline), ('(', .leftParen), (')', .rightParen), ('\x7b', .leftBrace),
    ('\x7d', .rightBrace), (',', .comma), ('.', .dot), (';', .semicolon), ('+', .plus),
    ('-', .minus), ('*', .star), ('/', .slash), ('^', .caret), ('=', .assign), ('<', .less),
    ('>', .greater)]

def pair? (b next : UInt8) : Option Kind :=
  (pairs.find? fun p => byte p.1 = b && byte p.2.1 = next).map (·.2.2)

/-- The token of one byte; a byte that begins nothing is illegal. -/
def single (b : UInt8) : Kind :=
  ((singles.find? fun s => byte s.1 = b).map (·.2)).getD .illegal

def mark (b : UInt8) (rest : List UInt8) : Kind × Nat :=
  match rest.head?.bind (pair? b) with
  | some kind => (kind, 1)
  | none => (single b, 0)

/-! ## The cut -/

def wordAhead (b : UInt8) (rest : List UInt8) : Bool :=
  match Text.Utf8.front b rest with
  | .character c _ => beginsWord c
  | .illFormed _ => false

def numberAhead (b : UInt8) (rest : List UInt8) : Bool :=
  isDigit b || (b = byte '.' && (rest.head?.map isDigit).getD false)

def front (b : UInt8) (rest : List UInt8) : Form × Nat :=
  if isBlank b then (.blank, (rest.takeWhile isBlank).length)
  else if b = byte '/' && rest.head? = some (byte '/') then
    (.lineComment, (rest.takeWhile (· ≠ byte '\n')).length)
  else if b = byte '/' && rest.head? = some (byte '*') then
    let (closed, n) := comment (rest.drop 1)
    (.blockComment closed, 1 + n)
  else if numberAhead b rest then
    let (kind, n) := number (b :: rest)
    (.token kind, n - 1)
  else if wordAhead b rest then
    let n := word (b :: rest)
    (.token (Kind.ofWord (String.ofList (Text.Utf8.decode ((b :: rest).take n)))), n - 1)
  else
    let (kind, n) := mark b rest
    (.token kind, n)

def cut : List UInt8 → List Piece
  | [] => []
  | b :: rest =>
    let (form, more) := front b rest
    ⟨form, b :: rest.take more⟩ :: cut (rest.drop more)
  termination_by source => source.length

/-- The pieces of a source tile it. -/
theorem bytes_cut (source : List UInt8) : (cut source).flatMap bytes = source := by
  fun_induction cut source with
  | case1 => rfl
  | case2 b rest form more _ ih =>
    simp only [List.flatMap_cons, ih, List.cons_append, List.take_append_drop]

/-! ## What a piece says -/

/-- The text of a token. A newline is written as a backslash and the letter n, and an illegal
    byte as the character of its number. -/
def lexeme (kind : Kind) (bytes : List UInt8) : String :=
  match kind with
  | .newline => "\\n"
  | .illegal => String.ofList (bytes.map fun b => Char.ofNat b.toNat)
  | _ => String.ofList (Text.Utf8.decode bytes)

end Piece

end ClassScript
