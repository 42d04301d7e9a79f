import ClassScript.Json
import ClassScript.Syntax.Node

/-! # Syntax trees as data

Every node becomes a record that names its kind and holds its span and its parts, the fields in
alphabetical order. Parts that may be left out have no field when they are absent, and a modifier
has one only when it is set.
-/

namespace ClassScript

def Position.record (p : Position) : Json :=
  .record [("column", .integer p.column), ("line", .integer p.line), ("offset", .integer p.offset)]

def Span.record (s : Span) : Json :=
  .record [("end", s.last.record), ("start", s.first.record)]

namespace Node

/-- A field that is there only if the part is. -/
def optional (key : String) (part : Node) (value : Json) : List (String × Json) :=
  if part.isAbsent then [] else [(key, value)]

/-- A field that is there only if the modifier is set. -/
def flag (key : String) (set : Bool) : List (String × Json) :=
  if set then [(key, .boolean true)] else []

mutual

/-- The record of a node; an empty place is null. -/
def record : Node → Json
  | .absent => .null
  | .foreign _ _ => .record [("kind", .string "Unknown")]
  | .tree span children =>
    .record [("children", .list (records children)), ("kind", .string "Tree"),
      ("span", span.record)]
  | .integer span value =>
    .record [("kind", .string "Integer"), ("span", span.record), ("value", .integer value.toInt)]
  | .double span value =>
    .record [("kind", .string "Double"), ("span", span.record), ("value", .double value)]
  | .boolean span value =>
    .record [("kind", .string "Bool"), ("span", span.record), ("value", .boolean value)]
  | .null span => .record [("kind", .string "Null"), ("span", span.record)]
  | .binary span op left right =>
    .record [("kind", .string "Binary"), ("left", left.record), ("op", .string op.symbol),
      ("right", right.record), ("span", span.record)]
  | .identifier span parent name =>
    .record ([("kind", .string "Identifier"), ("name", .string name)]
      ++ optional "parent" parent parent.record ++ [("span", span.record)])
  | .usage span target =>
    .record [("kind", .string "VariableUsage"), ("span", span.record), ("variable", target.record)]
  | .assignment span op target value =>
    .record ([("kind", .string "Assignment"), ("op", .string op.symbol), ("span", span.record)]
      ++ optional "value" value value.record ++ [("variable", target.record)])
  | .call span callee arguments =>
    .record [("args", .list (records arguments)), ("function", callee.record),
      ("kind", .string "FunctionCall"), ("span", span.record)]
  | .instantiation span blueprint arguments =>
    .record [("args", .list (records arguments)), ("class", blueprint.record),
      ("kind", .string "New"), ("span", span.record)]
  | .variableDeclaration span modifiers name type initial =>
    .record ([("access", .string modifiers.access.name)]
      ++ optional "assignment" initial initial.record ++ flag "final" modifiers.isFinal
      ++ flag "inClass" modifiers.inClass
      ++ [("kind", .string "VariableDeclaration"), ("name", .string name), ("span", span.record)]
      ++ flag "static" modifiers.isStatic ++ [("type", .string type.name)])
  | .whileLoop span condition body =>
    .record [("body", body.record), ("condition", condition.record), ("kind", .string "While"),
      ("span", span.record)]
  | .doWhileLoop span condition body =>
    .record [("body", body.record), ("condition", condition.record), ("kind", .string "DoWhile"),
      ("span", span.record)]
  | .forLoop span declaration condition round body =>
    .record ([("body", body.record)] ++ optional "condition" condition condition.record
      ++ optional "declaration" declaration declaration.record ++ [("kind", .string "For")]
      ++ optional "round" round round.record ++ [("span", span.record)])
  | .branch span condition body alternative =>
    .record ([("body", body.record), ("condition", condition.record)]
      ++ optional "elseBody" alternative alternative.record
      ++ [("kind", .string "If"), ("span", span.record)])
  | .functionDeclaration span modifiers name params body =>
    .record ([("access", .string modifiers.access.name), ("body", body.record)]
      ++ flag "final" modifiers.isFinal ++ flag "inClass" modifiers.inClass
      ++ [("kind", .string "FunctionDeclaration"), ("name", .string name),
        ("params", .list (params.map .string)), ("span", span.record)]
      ++ flag "static" modifiers.isStatic)
  | .classDeclaration span modifiers name fields methods classes =>
    .record ([("access", .string modifiers.access.name), ("classes", .list (records classes)),
        ("fields", .list (records fields))]
      ++ flag "final" modifiers.isFinal ++ flag "inClass" modifiers.inClass
      ++ [("kind", .string "ClassDeclaration"), ("methods", .list (records methods)),
        ("name", .string name), ("span", span.record)]
      ++ flag "static" modifiers.isStatic)

def records : List Node → List Json
  | [] => []
  | node :: rest => node.record :: records rest

end

end Node

end ClassScript
