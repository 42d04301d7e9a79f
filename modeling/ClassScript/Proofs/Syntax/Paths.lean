import ClassScript.Proofs.Parser.Parts
import ClassScript.Proofs.Syntax.Spans

/-! # Nodes by the paths to them

Two nodes of a tree can be equal and still be two nodes, and so can nodes of two trees.  What tells them apart is the
path that leads to them (`Node.at?`).  A tree can be marked with its paths: `Node.marked` puts a mark of its path in
the place of every node.  All else in the tree stays (`erase_marked`), and the mark of a node says where it
stands (`at?_marked`).
-/

namespace ClassScript.Node

/-! ## Paths -/

/-- The node that a path leads to.  Each number of the path says which part of a node to go on with. -/
def at? : Node → List Nat → Option Node
  | n, [] => some n
  | n, i :: path => n.parts[i]?.bind fun part => part.at? path

theorem at?_cons (n : Node) (i : Nat) (path : List Nat) :
    n.at? (i :: path) = n.parts[i]?.bind fun part => part.at? path := rfl

/-- The nodes of a tree are those that paths lead to. -/
theorem inside_iff {n t : Node} : n.Inside t ↔ ∃ path, t.at? path = some n := by
  constructor
  · intro inside
    induction inside with
    | self => exact ⟨[], rfl⟩
    | deeper below _ ih =>
      obtain ⟨path, found⟩ := ih
      obtain ⟨i, here⟩ := List.mem_iff_getElem?.1 below
      exact ⟨i :: path, by rw [at?_cons, here, Option.bind_some, found]⟩
  · rintro ⟨path, found⟩
    induction path generalizing t with
    | nil =>
      cases found
      exact .self
    | cons i path ih =>
      obtain ⟨part, here, found⟩ := Option.bind_eq_some_iff.1 found
      exact .deeper (List.mem_of_getElem? here) (ih found)

/-- The parts of a node of a tree are nodes of the tree. -/
theorem Inside.part {n t : Node} (inside : n.Inside t) {n' : Node} (below : n' ∈ n.parts) : n'.Inside t := by
  induction inside with
  | self => exact .deeper below .self
  | deeper here _ ih => exact .deeper here ih

/-! ## Marks -/

mutual

def marked (mark : List Nat → Span) : Node → Node
  | .absent => .absent
  | .foreign _ typeName => .foreign (mark []) typeName
  | .tree _ children => .tree (mark []) (markedFrom mark 0 children)
  | .integer _ value => .integer (mark []) value
  | .double _ value => .double (mark []) value
  | .boolean _ value => .boolean (mark []) value
  | .null _ => .null (mark [])
  | .binary _ op left right =>
    .binary (mark []) op (left.marked (mark <| 0 :: ·)) (right.marked (mark <| 1 :: ·))
  | .identifier _ parent name => .identifier (mark []) (parent.marked (mark <| 0 :: ·)) name
  | .usage _ target => .usage (mark []) (target.marked (mark <| 0 :: ·))
  | .assignment _ op target value =>
    .assignment (mark []) op (target.marked (mark <| 0 :: ·)) (value.marked (mark <| 1 :: ·))
  | .call _ callee arguments =>
    .call (mark []) (callee.marked (mark <| 0 :: ·)) (markedFrom mark 1 arguments)
  | .instantiation _ blueprint arguments =>
    .instantiation (mark []) (blueprint.marked (mark <| 0 :: ·)) (markedFrom mark 1 arguments)
  | .variableDeclaration _ modifiers name type initial =>
    .variableDeclaration (mark []) modifiers name type (initial.marked (mark <| 0 :: ·))
  | .whileLoop _ test body =>
    .whileLoop (mark []) (test.marked (mark <| 0 :: ·)) (body.marked (mark <| 1 :: ·))
  | .doWhileLoop _ test body =>
    .doWhileLoop (mark []) (test.marked (mark <| 0 :: ·)) (body.marked (mark <| 1 :: ·))
  | .forLoop _ first test round body =>
    .forLoop (mark []) (first.marked (mark <| 0 :: ·)) (test.marked (mark <| 1 :: ·))
      (round.marked (mark <| 2 :: ·)) (body.marked (mark <| 3 :: ·))
  | .branch _ test body alternative =>
    .branch (mark []) (test.marked (mark <| 0 :: ·)) (body.marked (mark <| 1 :: ·))
      (alternative.marked (mark <| 2 :: ·))
  | .functionDeclaration _ modifiers name params body =>
    .functionDeclaration (mark []) modifiers name params (body.marked (mark <| 0 :: ·))
  | .classDeclaration _ modifiers name fields methods classes =>
    .classDeclaration (mark []) modifiers name (markedFrom mark 0 fields)
      (markedFrom mark fields.length methods) (markedFrom mark (fields.length + methods.length) classes)

def markedFrom (mark : List Nat → Span) : Nat → List Node → List Node
  | _, [] => []
  | i, n :: rest => n.marked (mark <| i :: ·) :: markedFrom mark (i + 1) rest

end

variable (mark : List Nat → Span)

theorem markedFrom_eq (i : Nat) (ns : List Node) :
    markedFrom mark i ns = ns.mapIdx fun j n => n.marked (mark <| (i + j) :: ·) := by
  induction ns generalizing i with
  | nil => rfl
  | cons n ns ih =>
    simp only [markedFrom, List.mapIdx_cons, Nat.add_zero, ih, Nat.add_comm 1, Nat.add_assoc]

theorem parts_marked (n : Node) :
    (n.marked mark).parts = n.parts.mapIdx fun i part => part.marked (mark <| i :: ·) := by
  cases n <;> simp [marked, parts, markedFrom_eq, List.mapIdx_append, Nat.add_comm, Nat.add_left_comm]

theorem at?_marked (n : Node) (path : List Nat) :
    (n.marked mark).at? path = (n.at? path).map fun found => found.marked (mark <| path ++ ·) := by
  induction path generalizing n mark with
  | nil => rfl
  | cons i path ih =>
    rw [at?_cons, at?_cons, parts_marked, List.getElem?_mapIdx]
    cases n.parts[i]? with
    | none => rfl
    | some part => exact ih _ part

@[simp] theorem isAbsent_marked (n : Node) : (n.marked mark).isAbsent = n.isAbsent := by
  cases n <;> rfl

theorem span_marked {n : Node} (present : n.isAbsent = false) : (n.marked mark).span = mark [] := by
  cases n with
  | absent => cases present
  | _ => rfl

/-- Marks change nothing but places. -/
@[simp] theorem erase_marked (n : Node) : (n.marked mark).erase = n.erase := by
  let forget : Node → Node := mapSpans fun _ => .none
  have all {ns : List Node} (each : ∀ n ∈ ns, ∀ mark, forget (n.marked mark) = forget n) (i : Nat)
      (mark : List Nat → Span) : (markedFrom mark i ns).map forget = ns.map forget := by
    induction ns generalizing i with
    | nil => rfl
    | cons n ns ih =>
      obtain ⟨first, others⟩ := List.forall_mem_cons.1 each
      rw [markedFrom, List.map_cons, List.map_cons, first, ih others]
  simp only [erase]
  induction n using induct generalizing mark <;> simp_all [marked, mapSpans, forget]

end ClassScript.Node
