import ClassScript.Span
import ClassScript.Syntax.Operator

/-! # Syntax trees

Every part of a program is a node with a span. A part that the program leaves out, such as the
initial value of a variable or the condition of an endless loop, is the node `absent`. The tree
does not say which node may stand where: a host may build trees that no source text has, and the
evaluator says what becomes of them.
-/

namespace ClassScript

inductive Node
  /-- An empty place. -/
  | absent
  /-- A node of the host, which the language knows nothing about but its type. -/
  | foreign (span : Span) (typeName : String)
  /-- Statements in order: a whole program, or the body of a block. -/
  | tree (span : Span) (children : List Node)
  /-- An integer literal. -/
  | integer (span : Span) (value : Int64)
  /-- A literal with a fraction or an exponent. -/
  | double (span : Span) (value : Float)
  /-- `true` or `false`. -/
  | boolean (span : Span) (value : Bool)
  /-- `null`. -/
  | null (span : Span)
  /-- `left op right`. -/
  | binary (span : Span) (op : BinaryOp) (left right : Node)
  /-- The variable `name`, or the member `name` of what `parent` yields. -/
  | identifier (span : Span) (parent : Node) (name : String)
  /-- The value that a variable holds. -/
  | usage (span : Span) (target : Node)
  /-- `target op value`; the steps `++` and `--` have no value. -/
  | assignment (span : Span) (op : AssignOp) (target value : Node)
  /-- `callee(arguments)`. -/
  | call (span : Span) (callee : Node) (arguments : List Node)
  /-- `new blueprint(arguments)`. -/
  | instantiation (span : Span) (blueprint : Node) (arguments : List Node)
  /-- `type name`, with an assignment to the name when it has an initial value. -/
  | variableDeclaration (span : Span) (modifiers : Modifiers) (name : String)
      (type : DeclaredType) (initial : Node)
  /-- `while (condition) body`. -/
  | whileLoop (span : Span) (condition body : Node)
  /-- `do body while (condition)`. -/
  | doWhileLoop (span : Span) (condition body : Node)
  /-- `for (declaration; condition; round) body`. -/
  | forLoop (span : Span) (declaration condition round body : Node)
  /-- `if (condition) body else alternative`. -/
  | branch (span : Span) (condition body alternative : Node)
  /-- `function name(params) body`. -/
  | functionDeclaration (span : Span) (modifiers : Modifiers) (name : String)
      (params : List String) (body : Node)
  /-- A class with its members, sorted by what they declare. -/
  | classDeclaration (span : Span) (modifiers : Modifiers) (name : String)
      (fields methods classes : List Node)
  deriving Repr, Inhabited

namespace Node

def span : Node → Span
  | .absent => .none
  | .foreign span _ | .tree span _ | .integer span _ | .double span _ | .boolean span _
  | .null span | .binary span _ _ _ | .identifier span _ _ | .usage span _
  | .assignment span _ _ _ | .call span _ _ | .instantiation span _ _
  | .variableDeclaration span _ _ _ _ | .whileLoop span _ _ | .doWhileLoop span _ _
  | .forLoop span _ _ _ _ | .branch span _ _ _ | .functionDeclaration span _ _ _ _
  | .classDeclaration span _ _ _ _ _ => span

def isAbsent : Node → Bool
  | .absent => true
  | _ => false

end Node

end ClassScript
