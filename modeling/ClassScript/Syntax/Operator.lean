/-! # Operators, declared types and modifiers

The small vocabularies of the syntax tree. Each has a word for what a host may put in place of a
known member; the language itself never writes it.
-/

namespace ClassScript

inductive BinaryOp
  | add
  | sub
  | mul
  | div
  | pow
  | equal
  | bigger
  | smaller
  | biggerEqual
  | smallerEqual
  | and
  | or
  | unknown
  deriving DecidableEq, Repr, Inhabited

namespace BinaryOp

def all : List BinaryOp :=
  [.add, .sub, .mul, .div, .pow, .equal, .bigger, .smaller, .biggerEqual, .smallerEqual, .and, .or]

def symbol : BinaryOp → String
  | .add => "+"
  | .sub => "-"
  | .mul => "*"
  | .div => "/"
  | .pow => "^"
  | .equal => "=="
  | .bigger => ">"
  | .smaller => "<"
  | .biggerEqual => ">="
  | .smallerEqual => "<="
  | .and => "&&"
  | .or => "||"
  | .unknown => "?"

def ofCode (code : Int) : BinaryOp :=
  if 0 ≤ code then all[code.toNat]?.getD .unknown else .unknown

end BinaryOp

inductive AssignOp
  | assign
  | add
  | sub
  | mul
  | div
  | pow
  | increase
  | decrease
  | unknown
  deriving DecidableEq, Repr, Inhabited

namespace AssignOp

def all : List AssignOp :=
  [.assign, .add, .sub, .mul, .div, .pow, .increase, .decrease]

def symbol : AssignOp → String
  | .assign => "="
  | .add => "+="
  | .sub => "-="
  | .mul => "*="
  | .div => "/="
  | .pow => "^="
  | .increase => "++"
  | .decrease => "--"
  | .unknown => "?"

def ofCode (code : Int) : AssignOp :=
  if 0 ≤ code then all[code.toNat]?.getD .unknown else .unknown

/-- The arithmetic that a compound assignment applies to the old value; a plain one applies none. -/
def arithmetic? : AssignOp → Option BinaryOp
  | .add | .increase => some .add
  | .sub | .decrease => some .sub
  | .mul => some .mul
  | .div => some .div
  | .pow => some .pow
  | .assign | .unknown => none

end AssignOp

/-- The type a variable is declared with. It is recorded and never enforced. -/
inductive DeclaredType
  | dynamic
  | byte
  | short
  | integer
  | long
  | float
  | double
  | boolean
  | char
  | function
  | blueprint
  | object
  | unknown
  deriving DecidableEq, Repr, Inhabited

namespace DeclaredType

def all : List DeclaredType :=
  [.dynamic, .byte, .short, .integer, .long, .float, .double, .boolean, .char, .function,
    .blueprint, .object]

def name : DeclaredType → String
  | .dynamic => "DYNAMIC"
  | .byte => "BYTE"
  | .short => "SHORT"
  | .integer => "INTEGER"
  | .long => "LONG"
  | .float => "FLOAT"
  | .double => "DOUBLE"
  | .boolean => "BOOLEAN"
  | .char => "CHAR"
  | .function => "FUNCTION"
  | .blueprint => "CLASS"
  | .object => "OBJECT"
  | .unknown => "UNKNOWN"

def ofCode (code : Int) : DeclaredType :=
  if 0 ≤ code then all[code.toNat]?.getD .unknown else .unknown

end DeclaredType

/-- Who may see a declaration. It is recorded and never enforced. -/
inductive Access
  | packageAccess
  | publicAccess
  | protectedAccess
  | privateAccess
  deriving DecidableEq, Repr, Inhabited

namespace Access

def name : Access → String
  | .packageAccess => "PACKAGE"
  | .publicAccess => "PUBLIC"
  | .protectedAccess => "PROTECTED"
  | .privateAccess => "PRIVATE"

/-- The access level with a number; numbers without one mean the package. -/
def ofCode (code : Int) : Access :=
  if code = 1 then .publicAccess
  else if code = 2 then .protectedAccess
  else if code = 3 then .privateAccess
  else .packageAccess

end Access

structure Modifiers where
  access : Access := .packageAccess
  inClass : Bool := false
  isStatic : Bool := false
  isFinal : Bool := false
  deriving DecidableEq, Repr, Inhabited

end ClassScript
