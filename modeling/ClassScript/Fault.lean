import ClassScript.Span
import ClassScript.Text.Quoted
import ClassScript.Value

/-! # Runtime errors

A fault is the cause of a runtime error, and a failure is a fault with the span it is blamed on.
Operations on values and scopes know no spans: they raise faults, and the evaluator adds the span
of the innermost node that has one.
-/

namespace ClassScript

inductive FaultKind
  | alreadyDeclared
  | undeclaredVariable
  | uninitializedAccess
  | typeMismatch
  | invalidCallee
  | noSuchMember
  | unsupportedNode
  | arityMismatch
  | other (code : Int)
  deriving DecidableEq, Repr

namespace FaultKind

def all : List FaultKind :=
  [.alreadyDeclared, .undeclaredVariable, .uninitializedAccess, .typeMismatch, .invalidCallee,
    .noSuchMember, .unsupportedNode, .arityMismatch]

def name : FaultKind → String
  | .alreadyDeclared => "AlreadyDeclared"
  | .undeclaredVariable => "UndeclaredVariable"
  | .uninitializedAccess => "UninitializedAccess"
  | .typeMismatch => "TypeMismatch"
  | .invalidCallee => "InvalidCallee"
  | .noSuchMember => "NoSuchMember"
  | .unsupportedNode => "UnsupportedNode"
  | .arityMismatch => "ArityMismatch"
  | .other code => s!"ErrorKind({code})"

def ofCode (code : Int) : FaultKind :=
  if 1 ≤ code then all[(code - 1).toNat]?.getD (.other code) else .other code

def codeOf? (name : String) : Option Nat :=
  (all.findIdx? (·.name = name)).map (· + 1)

end FaultKind

inductive Fault
  /-- A name is declared twice in one scope. -/
  | redeclared (name : String)
  /-- A class declares two functions of one name. -/
  | redeclaredMethod (method className : String)
  /-- No scope declares the name. -/
  | undeclared (name : String)
  /-- The variable has no value yet. -/
  | uninitialized (name : String)
  /-- The operator does not take such operands. -/
  | operands (op : BinaryOp) (left right : ValueKind)
  /-- The left operand of a logical operator is no boolean. -/
  | logicalOperand (op : BinaryOp) (left : ValueKind)
  /-- A condition is no boolean. -/
  | condition (found : ValueKind)
  /-- Only classes and objects have members. -/
  | memberOf (name : String) (found : ValueKind)
  /-- Only classes have objects. -/
  | notInstantiable (found : ValueKind)
  /-- Only functions can be called. -/
  | notCallable (found : ValueKind)
  /-- The class has no such member. -/
  | noMember (className name : String)
  /-- The evaluator does not know the node. -/
  | foreignNode (typeName : String)
  /-- A function is called with too many or too few arguments. -/
  | argumentCount (function : String) (expected found : Nat)
  /-- Objects are made without arguments. -/
  | constructorArguments (className : String) (found : Nat)
  deriving DecidableEq, Repr

namespace Fault

def kind : Fault → FaultKind
  | .redeclared _ | .redeclaredMethod _ _ => .alreadyDeclared
  | .undeclared _ => .undeclaredVariable
  | .uninitialized _ => .uninitializedAccess
  | .operands _ _ _ | .logicalOperand _ _ | .condition _ | .memberOf _ _ | .notInstantiable _ =>
    .typeMismatch
  | .notCallable _ => .invalidCallee
  | .noMember _ _ => .noSuchMember
  | .foreignNode _ => .unsupportedNode
  | .argumentCount _ _ _ | .constructorArguments _ _ => .arityMismatch

def message : Fault → String
  | .redeclared name => s!"variable {name} is already declared in this scope"
  | .redeclaredMethod method className =>
    s!"function {method} is already declared in class {className}"
  | .undeclared name => s!"variable {name} is not declared"
  | .uninitialized name => s!"variable {name} is used before it is assigned"
  | .operands op left right =>
    s!"cannot apply '{op.symbol}' to {left.name} and {right.name}"
  | .logicalOperand op left => s!"cannot apply '{op.symbol}' to {left.name}"
  | .condition found => s!"condition must be a boolean, got {found.name}"
  | .memberOf name found => s!"cannot access member {name} of {found.name}"
  | .notInstantiable found => s!"cannot instantiate {found.name}"
  | .notCallable found => s!"{found.name} is not a function"
  | .noMember className name => s!"class {Text.quote className} has no member {name}"
  | .foreignNode typeName => s!"unsupported node: {typeName}"
  | .argumentCount function expected found =>
    s!"function {function} expects {expected} arguments, got {found}"
  | .constructorArguments className found =>
    s!"class {className} has no constructor taking {found} arguments"

end Fault

structure Failure where
  fault : Fault
  span : Span
  deriving DecidableEq, Repr

namespace Failure

def textOf (message : String) (span : Span) : String :=
  if span.isNone then "runtime error: " ++ message
  else "runtime error at " ++ span.first.text ++ ": " ++ message

def text (f : Failure) : String := textOf f.fault.message f.span

/-- A failure blamed on a span, unless it has one already. -/
def blame (f : Failure) (span : Span) : Failure :=
  if f.span.isNone then { f with span } else f

end Failure

end ClassScript
