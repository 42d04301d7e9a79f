import ClassScript.Number.Layout
import ClassScript.Syntax.Node

/-! # Values

What an expression can yield. Scopes, functions, classes and objects are plain data: a scope is the
chain of its frames, innermost first, and the variables themselves live in the tables of a store
(`ClassScript.Store`), which frames point to. A variable that an identifier names is a value of its
own, a *slot*; no slot is ever stored in a variable.
-/

namespace ClassScript

abbrev TableId := Nat

/-- One level of a scope: its identity, and the table of the variables declared in it. -/
structure Frame where
  id : Nat
  table : TableId
  deriving DecidableEq, Repr, Inhabited

/-- A lexical environment: its own frame and those around it, innermost first. -/
structure Scope where
  frame : Frame
  enclosing : List Frame
  deriving DecidableEq, Repr, Inhabited

namespace Scope

def frames (s : Scope) : List Frame := s.frame :: s.enclosing

def parent? (s : Scope) : Option Scope :=
  match s.enclosing with
  | [] => none
  | frame :: enclosing => some ⟨frame, enclosing⟩

def table (s : Scope) : TableId := s.frame.table

end Scope

/-- The sorts of value. A class is a value as the blueprint of its objects. -/
inductive ValueKind
  | integer
  | double
  | boolean
  | null
  | function
  | blueprint
  | object
  | variable
  deriving DecidableEq, Repr

def ValueKind.name : ValueKind → String
  | .integer => "integer"
  | .double => "double"
  | .boolean => "boolean"
  | .null => "null"
  | .function => "function"
  | .blueprint => "class"
  | .object => "object"
  | .variable => "variable"

/-- What a call of a function of the host still has to do. Each step goes on with its answer, and an
    argument that cannot be evaluated ends the call. -/
inductive Host
  | returns
  | fails (message : String)
  /-- The answer tells whether the text was written. -/
  | writes (text : String) (next : Bool → Host)
  /-- Evaluate the argument with a number where the call stands. The answer is the sort and the text
      of what it yields, or nothing if there are not so many arguments. -/
  | evaluates (argument : Nat) (next : Option (ValueKind × String) → Host)
  /-- Look at the scope of the call. The answer has the names declared in it, and then those in each
      scope around it. -/
  | looks (next : List (List String) → Host)

inductive Native
  /-- Write the arguments, and an ending after them. -/
  | print (ending : String)
  /-- A function that the host adds. It is told the number of its arguments. -/
  | host (act : Nat → Host)

/-- A function. Evaluating a declaration makes a new function with a stamp of its own; binding a
    function to an object changes its closure and keeps the stamp. -/
structure FunctionValue where
  stamp : Nat
  name : String
  params : List String
  body : Node
  closure : Scope
  modifiers : Modifiers
  native : Option Native
  deriving Inhabited

namespace FunctionValue

def bind (f : FunctionValue) (scope : Scope) : FunctionValue := { f with closure := scope }

/-- Whether two functions stem from one declaration and close over one scope. Functions without a
    body count as one declaration. -/
def same (f g : FunctionValue) : Bool :=
  if f.native.isSome || g.native.isSome then f.stamp = g.stamp
  else (f.stamp = g.stamp || (f.body.isAbsent && g.body.isAbsent)) && f.closure = g.closure

end FunctionValue

/-- A class. Its static members are the variables of its member scope; its functions are bound to
    an object when they are read from one, and its field declarations are evaluated anew for each
    object. -/
structure ClassValue where
  name : String
  modifiers : Modifiers
  members : Scope
  prototype : List FunctionValue
  fields : List Node
  deriving Inhabited

def ClassValue.method? (c : ClassValue) (name : String) : Option FunctionValue :=
  c.prototype.find? (·.name = name)

/-- An object. Its fields are the variables of its scope, which lies in the member scope of its
    class. -/
structure ObjectValue where
  blueprint : ClassValue
  scope : Scope
  deriving Inhabited

/-- A variable: one in a table of the store, or a method on its way from an object, which no table
    holds. -/
inductive Slot
  | stored (table : TableId) (name : String)
  | method (function : FunctionValue)
  deriving Inhabited

inductive Value
  | integer (value : Int64)
  | double (value : Float)
  | boolean (value : Bool)
  | null
  | function (value : FunctionValue)
  | blueprint (value : ClassValue)
  | object (value : ObjectValue)
  | slot (slot : Slot)
  deriving Inhabited

namespace Value

def kind : Value → ValueKind
  | .integer _ => .integer
  | .double _ => .double
  | .boolean _ => .boolean
  | .null => .null
  | .function _ => .function
  | .blueprint _ => .blueprint
  | .object _ => .object
  | .slot _ => .variable

def isPlain : Value → Bool
  | .slot _ => false
  | _ => true

def text : Value → String
  | .integer value => toString value.toInt
  | .double value => Number.Layout.value.text value
  | .boolean value => if value then "true" else "false"
  | .null => "null"
  | .function f => "<function " ++ f.name ++ ">"
  | .blueprint c => "<class " ++ c.name ++ ">"
  | .object o => "<" ++ o.blueprint.name ++ " instance>"
  | .slot _ => ""

end Value

end ClassScript
