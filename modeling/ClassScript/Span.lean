/-! # Positions and spans

A position is a byte offset with the line and column that belong to it, and a span is a stretch of
source between two positions. Lines and columns count from one and a column counts bytes. The
numbers are integers because a host may hand in positions of its own; a position without a line is
no place in any source.
-/

namespace ClassScript

structure Position where
  /-- Bytes before the place. -/
  offset : Int
  /-- The line, the first one being 1. -/
  line : Int
  /-- The byte within the line, the first one being 1. -/
  column : Int
  deriving DecidableEq, Repr, Inhabited

namespace Position

def none : Position := ⟨0, 0, 0⟩

def start : Position := ⟨0, 1, 1⟩

def isValid (p : Position) : Bool := 0 < p.line

/-- The place after one more byte: a newline opens the next line. -/
def step (p : Position) (byte : UInt8) : Position :=
  if byte = 10 then ⟨p.offset + 1, p.line + 1, 1⟩ else ⟨p.offset + 1, p.line, p.column + 1⟩

def advance (p : Position) (bytes : List UInt8) : Position :=
  bytes.foldl step p

/-- Line and column, as in `3:14`. -/
def text (p : Position) : String :=
  toString p.line ++ ":" ++ toString p.column

@[simp] theorem advance_nil (p : Position) : p.advance [] = p := rfl

theorem advance_append (p : Position) (xs ys : List UInt8) :
    p.advance (xs ++ ys) = (p.advance xs).advance ys := by
  simp [advance]

end Position

structure Span where
  first : Position
  last : Position
  deriving DecidableEq, Repr, Inhabited

namespace Span

def none : Span := ⟨.none, .none⟩

def isNone (s : Span) : Bool := !s.first.isValid

def cover (s other : Span) : Span where
  first := if other.first.offset < s.first.offset then other.first else s.first
  last := if s.last.offset < other.last.offset then other.last else s.last

/-- Both ends, as in `1:2..1:5`. -/
def text (s : Span) : String :=
  s.first.text ++ ".." ++ s.last.text

end Span

end ClassScript
