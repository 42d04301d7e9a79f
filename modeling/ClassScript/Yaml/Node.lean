import ClassScript.Yaml.Scalar

/-! # Nodes of YAML

A document is a tree of scalars, sequences and mappings. An alias stands for a node with a name that
was read before it. An alias within the node that it names is a loop.
-/

namespace ClassScript.Yaml

/-- A node of a document. Lines are counted from one, tags are short names. -/
inductive Node
  | scalar (scalar : Scalar)
  | sequence (line : Nat) (tag : String) (items : List Node)
  | mapping (line : Nat) (tag : String) (entries : List (Node × Node))
  | reference (line : Nat) (name : String) (target : Node)
  /-- An alias for a collection that it is a part of; line and tag of that follow. -/
  | loop (line : Nat) (name : String) (isMapping : Bool) (targetLine : Nat) (targetTag : String)
  deriving Repr, Inhabited

namespace Node

def line : Node → Nat
  | .scalar s => s.line
  | .sequence line _ _ => line
  | .mapping line _ _ => line
  | .reference line _ _ => line
  | .loop line _ _ _ _ => line

inductive Kind
  | scalar
  | sequence
  | mapping
  | reference
  deriving DecidableEq, Repr, Inhabited

def kind : Node → Kind
  | .scalar _ => .scalar
  | .sequence _ _ _ => .sequence
  | .mapping _ _ _ => .mapping
  | .reference _ _ _ | .loop _ _ _ _ _ => .reference

/-- The text of a node; a collection has none. -/
def text : Node → String
  | .scalar s => s.text
  | .sequence _ _ _ | .mapping _ _ _ => ""
  | .reference _ name _ | .loop _ name _ _ _ => name

def isMerge : Node → Bool
  | .scalar s => s.isMerge
  | _ => false

def empty (line : Nat) : Node := .scalar { line, text := "", plain := true }

end Node

end ClassScript.Yaml
