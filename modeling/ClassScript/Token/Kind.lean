import ClassScript.Span
import ClassScript.Syntax.Operator

/-! # Kinds of token

The kinds are numbered in the order of `Kind.all`, and a host may name a kind by its number. A
number outside the list is a kind too, one that no grammar rule mentions.
-/

namespace ClassScript

inductive Kind
  | illegal
  | endOfFile
  | newline
  | identifier
  | integer
  | double
  | plus
  | minus
  | star
  | slash
  | caret
  | equals
  | less
  | lessEquals
  | greater
  | greaterEquals
  | andAnd
  | orOr
  | assign
  | plusAssign
  | minusAssign
  | starAssign
  | slashAssign
  | caretAssign
  | increment
  | decrement
  | leftParen
  | rightParen
  | leftBrace
  | rightBrace
  | comma
  | dot
  | semicolon
  | ifWord
  | elseWord
  | whileWord
  | doWord
  | forWord
  | functionWord
  | classWord
  | newWord
  | trueWord
  | falseWord
  | nullWord
  | varWord
  | byteWord
  | shortWord
  | intWord
  | longWord
  | floatWord
  | doubleWord
  | booleanWord
  | charWord
  | publicWord
  | protectedWord
  | privateWord
  | staticWord
  | finalWord
  | other (code : Int)
  deriving DecidableEq, Repr, Inhabited

namespace Kind

def all : List Kind :=
  [.illegal, .endOfFile, .newline, .identifier, .integer, .double,
    .plus, .minus, .star, .slash, .caret,
    .equals, .less, .lessEquals, .greater, .greaterEquals, .andAnd, .orOr,
    .assign, .plusAssign, .minusAssign, .starAssign, .slashAssign, .caretAssign,
    .increment, .decrement,
    .leftParen, .rightParen, .leftBrace, .rightBrace, .comma, .dot, .semicolon,
    .ifWord, .elseWord, .whileWord, .doWord, .forWord, .functionWord, .classWord, .newWord,
    .trueWord, .falseWord, .nullWord,
    .varWord, .byteWord, .shortWord, .intWord, .longWord, .floatWord, .doubleWord,
    .booleanWord, .charWord,
    .publicWord, .protectedWord, .privateWord, .staticWord, .finalWord]

def ofCode (code : Int) : Kind :=
  if 0 ≤ code then all[code.toNat]?.getD (.other code) else .other code

def code : Kind → Int
  | .other code => code
  | kind => all.idxOf kind

/-- The name of a kind: operators and keywords are named by their spelling. -/
def name : Kind → String
  | .illegal => "ILLEGAL"
  | .endOfFile => "EOF"
  | .newline => "NEWLINE"
  | .identifier => "IDENT"
  | .integer => "INT"
  | .double => "DOUBLE"
  | .plus => "+"
  | .minus => "-"
  | .star => "*"
  | .slash => "/"
  | .caret => "^"
  | .equals => "=="
  | .less => "<"
  | .lessEquals => "<="
  | .greater => ">"
  | .greaterEquals => ">="
  | .andAnd => "&&"
  | .orOr => "||"
  | .assign => "="
  | .plusAssign => "+="
  | .minusAssign => "-="
  | .starAssign => "*="
  | .slashAssign => "/="
  | .caretAssign => "^="
  | .increment => "++"
  | .decrement => "--"
  | .leftParen => "("
  | .rightParen => ")"
  | .leftBrace => "\x7b"
  | .rightBrace => "\x7d"
  | .comma => ","
  | .dot => "."
  | .semicolon => ";"
  | .ifWord => "if"
  | .elseWord => "else"
  | .whileWord => "while"
  | .doWord => "do"
  | .forWord => "for"
  | .functionWord => "function"
  | .classWord => "class"
  | .newWord => "new"
  | .trueWord => "true"
  | .falseWord => "false"
  | .nullWord => "null"
  | .varWord => "var"
  | .byteWord => "byte"
  | .shortWord => "short"
  | .intWord => "int"
  | .longWord => "long"
  | .floatWord => "float"
  | .doubleWord => "double"
  | .booleanWord => "boolean"
  | .charWord => "char"
  | .publicWord => "public"
  | .protectedWord => "protected"
  | .privateWord => "private"
  | .staticWord => "static"
  | .finalWord => "final"
  | .other code => s!"Kind({code})"

/-- The declared type that a type keyword stands for. -/
def declaredType? : Kind → Option DeclaredType
  | .varWord => some .dynamic
  | .byteWord => some .byte
  | .shortWord => some .short
  | .intWord => some .integer
  | .longWord => some .long
  | .floatWord => some .float
  | .doubleWord => some .double
  | .booleanWord => some .boolean
  | .charWord => some .char
  | _ => none

def isTypeWord (kind : Kind) : Bool := kind.declaredType?.isSome

def isModifier : Kind → Bool
  | .publicWord | .protectedWord | .privateWord | .staticWord | .finalWord => true
  | _ => false

/-- The operator that an assignment token writes, the steps `++` and `--` included. -/
def assignOp? : Kind → Option AssignOp
  | .assign => some .assign
  | .plusAssign => some .add
  | .minusAssign => some .sub
  | .starAssign => some .mul
  | .slashAssign => some .div
  | .caretAssign => some .pow
  | .increment => some .increase
  | .decrement => some .decrease
  | _ => none

def isAssignment (kind : Kind) : Bool := kind.assignOp?.isSome

def binaryOp? : Kind → Option BinaryOp
  | .plus => some .add
  | .minus => some .sub
  | .star => some .mul
  | .slash => some .div
  | .caret => some .pow
  | .equals => some .equal
  | .greater => some .bigger
  | .less => some .smaller
  | .greaterEquals => some .biggerEqual
  | .lessEquals => some .smallerEqual
  | .andAnd => some .and
  | .orOr => some .or
  | _ => none

def keywords : List Kind :=
  [.ifWord, .elseWord, .whileWord, .doWord, .forWord, .functionWord, .classWord, .newWord,
    .trueWord, .falseWord, .nullWord,
    .varWord, .byteWord, .shortWord, .intWord, .longWord, .floatWord, .doubleWord,
    .booleanWord, .charWord,
    .publicWord, .protectedWord, .privateWord, .staticWord, .finalWord]

def isKeyword (kind : Kind) : Bool := keywords.contains kind

/-- The kind of a word: the keyword it spells, or an identifier. -/
def ofWord (word : String) : Kind :=
  (keywords.find? (·.name = word)).getD .identifier

end Kind

end ClassScript
