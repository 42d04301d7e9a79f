import ClassScript.Number.Literal
import ClassScript.Parser.Cursor
import ClassScript.Syntax.Node

/-! # Expressions

Operators bind by their power: an operand goes on as long as the next operator binds tighter than
the one to the left of it. Assignment binds loosest and to the right. Where no expression begins,
the result is `Node.absent` and nothing is reported; whoever needed one does that.

The rules are written over `rec`, which parses the parts that are again expressions or statements;
`ClassScript.Parser` ties the knot.
-/

namespace ClassScript

inductive Goal
  /-- A statement. -/
  | statement
  /-- A declaration in a class body. -/
  | member
  /-- An expression, assignments included. -/
  | expression
  /-- An operand that stops before operators binding no tighter than the power. -/
  | operand (power : Nat)
  deriving DecidableEq, Repr

/-- How tightly an operator binds what stands to the left of it; zero for all other tokens. -/
def Kind.power : Kind → Nat
  | .orOr => 10
  | .andAnd => 20
  | .equals => 30
  | .less | .lessEquals | .greater | .greaterEquals => 40
  | .plus | .minus => 50
  | .star | .slash => 60
  | .caret => 65
  | .leftParen | .dot | .increment | .decrement => 80
  | _ => 0

def signPower : Nat := 70

namespace Parser

/-- A minus sign in front of a number belongs to the number; in front of anything else it
    subtracts from zero. -/
def negate (span : Span) : Node → Node
  | .integer _ value => .integer span (-value)
  | .double _ value => .double span (-value)
  | operand => .binary span .sub (.integer span 0) operand

def assignTarget (left : Node) (operator : Token) : Parser Node :=
  match left with
  | .usage _ target => return target
  | _ => do
    complain (.badTarget operator.lexeme) left.span
    return .identifier left.span .absent ""

def assignOp (operator : Token) : AssignOp := operator.kind.assignOp?.getD .assign

def orNull (found : Node) (complaint : Token → Complaint) : Parser Node := do
  if found.isAbsent then
    let t ← peek
    complain (complaint t) t.span
    return .null t.span
  else
    return found

section Rules

variable (rec : Goal → Parser Node)

def argument : Parser Node := do
  orNull (← rec .expression) fun t => .missingArgument t.lexeme

def arguments : Parser (List Node) := do
  let (_, opened) ← expect .leftParen
  if !opened then return []
  skipNewlines
  let args ←
    if (← peekKind) = .rightParen then pure []
    else do
      let head ← argument rec
      loop (· = .comma) (fun args => do
        let _ ← advance
        skipNewlines
        return args ++ [← argument rec]) [head]
  skipNewlines
  require .rightParen
  return args

/-- A member read: a point and a name behind an operand. -/
def memberRead (left : Node) : Parser Node := do
  let _ ← advance
  skipNewlines
  let (name, _) ← expect .identifier
  let span := left.span.cover name.span
  return .usage span (.identifier span left name.lexeme)

/-- A call of what stands to the left. A name is passed on as a variable and not as its value. -/
def callOf (callee : Node) : Parser Node := do
  let args ← arguments rec
  let function := match callee with
    | .usage _ target => target
    | callee => callee
  return .call ⟨callee.span.first, (← get).lastEnd⟩ function args

/-- An operator and its right operand. Powers associate to the right. -/
def binaryWith (left : Node) (operator : Token) (op : BinaryOp) : Parser Node := do
  let power := operator.kind.power
  let _ ← advance
  skipNewlines
  let right ← rec (.operand (if operator.kind = .caret then power - 1 else power))
  let right ← orNull right fun t => .missingOperand operator.lexeme t.lexeme
  return .binary (left.span.cover right.span) op left right

def extend (left : Node) : Parser Node := do
  let t ← peek
  match t.kind with
  | .increment | .decrement =>
    let _ ← advance
    return .assignment (left.span.cover t.span) (assignOp t) (← assignTarget left t) .absent
  | .leftParen => callOf rec left
  | .dot => memberRead left
  | kind =>
    match kind.binaryOp? with
    | some op => binaryWith rec left t op
    | none => return left

/-- A class name, possibly dotted, and arguments behind `new`. -/
def instantiation : Parser Node := do
  let start ← advance
  let (name, found) ← expect .identifier
  if !found then return .null (← spanFrom start.span.first)
  let plain : Node := .usage name.span (.identifier name.span .absent name.lexeme)
  let blueprint ← loop (· = .dot) memberRead plain
  let args ← arguments rec
  return .instantiation (← spanFrom start.span.first) blueprint args

/-- The beginning of an operand: a literal, a name, a group, a sign with its operand, a step or an
    instantiation. -/
def atom : Parser Node := do
  let t ← peek
  match t.kind with
  | .integer =>
    let _ ← advance
    let (value, fits) := Number.readInteger t.lexeme
    if !fits then complain (.integerRange t.lexeme) t.span
    return .integer t.span value
  | .double =>
    let _ ← advance
    let (value, fits) := Number.readDouble t.lexeme
    if !fits then complain (.malformedNumber t.lexeme) t.span
    return .double t.span value
  | .trueWord =>
    let _ ← advance
    return .boolean t.span true
  | .falseWord =>
    let _ ← advance
    return .boolean t.span false
  | .nullWord =>
    let _ ← advance
    return .null t.span
  | .identifier =>
    let _ ← advance
    return .usage t.span (.identifier t.span .absent t.lexeme)
  | .leftParen =>
    let _ ← advance
    skipNewlines
    let inner ← rec .expression
    skipNewlines
    require .rightParen
    return inner
  | .minus =>
    let _ ← advance
    skipNewlines
    let operand ← rec (.operand signPower)
    if operand.isAbsent then return .absent
    return negate (t.span.cover operand.span) operand
  | .plus =>
    let _ ← advance
    skipNewlines
    rec (.operand signPower)
  | .increment | .decrement =>
    let _ ← advance
    let operand ← rec (.operand signPower)
    if operand.isAbsent then return .absent
    return .assignment (t.span.cover operand.span) (assignOp t) (← assignTarget operand t) .absent
  | .newWord => instantiation rec
  | _ => return .absent

def operand (power : Nat) : Parser Node := do
  let left ← atom rec
  if left.isAbsent then return .absent
  loop (fun kind => power < kind.power) (extend rec) left

def assignsValue (kind : Kind) : Bool :=
  kind.isAssignment && kind ≠ .increment && kind ≠ .decrement

def expression : Parser Node := do
  let left ← rec (.operand 0)
  if left.isAbsent then return .absent
  if !assignsValue (← peekKind) then return left
  let operator ← advance
  skipNewlines
  let value ← orNull (← rec .expression) fun _ => .missingAssigned operator.lexeme
  return .assignment (left.span.cover value.span) (assignOp operator)
    (← assignTarget left operator) value

end Rules

end Parser

end ClassScript
