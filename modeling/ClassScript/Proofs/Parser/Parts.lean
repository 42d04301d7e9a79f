import ClassScript.Proofs.Parser.Image

/-! # The nodes of accepted programs

`Inside n t` says that the node `n` occurs in the tree `t`, at any depth.  A tree that fits a role has only
nodes that fit roles of their own (`Fits.inside`), hence every node of a program without diagnostics fits
one (`exists_fits_of_inside`).
-/

namespace ClassScript

namespace Node

def parts : Node → List Node
  | .absent | .foreign .. | .integer .. | .double .. | .boolean .. | .null .. => []
  | .tree _ children => children
  | .binary _ _ left right => [left, right]
  | .identifier _ parent _ => [parent]
  | .usage _ target => [target]
  | .assignment _ _ target value => [target, value]
  | .call _ callee arguments => callee :: arguments
  | .instantiation _ blueprint arguments => blueprint :: arguments
  | .variableDeclaration _ _ _ _ initial => [initial]
  | .whileLoop _ test body | .doWhileLoop _ test body => [test, body]
  | .forLoop _ first test round body => [first, test, round, body]
  | .branch _ test body alternative => [test, body, alternative]
  | .functionDeclaration _ _ _ _ body => [body]
  | .classDeclaration _ _ _ fields methods classes => fields ++ methods ++ classes

inductive Inside (n : Node) : Node → Prop
  | self : Inside n n
  | deeper {part whole : Node} : part ∈ whole.parts → Inside n part → Inside n whole

end Node

namespace Parser

variable {numbers : Numbers}

/-- The name of a class can be read as an expression. -/
theorem Fits.expression_of_className {n : Node} (fits : Fits numbers .className n) :
    Fits numbers .expression n := by
  generalize is : Role.className = role at fits
  induction fits with
  | plainName => exact .usage .name
  | nestedName _ outer => exact .usage (.member (outer is))
  | _ => cases is

/-- Each part of a tree that fits a role fits a role. -/
theorem Fits.parts {role : Role} {n : Node} (fits : Fits numbers role n) :
    ∀ part ∈ n.parts, ∃ role', Fits numbers role' part := by
  have all {role : Role} {ns : List Node} (fit : ∀ n ∈ ns, Fits numbers role n) :
      ∀ n ∈ ns, ∃ role', Fits numbers role' n := fun n member => ⟨role, fit n member⟩
  -- Empty places fit as parts of a loop header, wherever they stand.
  have absent : ∃ role', Fits numbers role' .absent := ⟨_, .slotNone⟩
  induction fits with
  | integer | double | boolean | null | slotNone => exact nofun
  | usage target => simpa [Node.parts] using ⟨_, target⟩
  | binary _ left right => simpa [Node.parts] using ⟨⟨_, left⟩, ⟨_, right⟩⟩
  | step _ target => simpa [Node.parts] using ⟨⟨_, target⟩, absent⟩
  | assignment _ _ _ target value => simpa [Node.parts] using ⟨⟨_, target⟩, ⟨_, value⟩⟩
  | callName callee arguments => exact List.forall_mem_cons.2 ⟨⟨_, callee⟩, all arguments⟩
  | callValue callee _ arguments => exact List.forall_mem_cons.2 ⟨⟨_, callee⟩, all arguments⟩
  | instantiation blueprint arguments => exact List.forall_mem_cons.2 ⟨⟨_, blueprint⟩, all arguments⟩
  | name => simpa [Node.parts] using absent
  | member receiver => simpa [Node.parts] using ⟨_, receiver⟩
  | plainName => simpa [Node.parts] using ⟨_, .name⟩
  | nestedName outer => simpa [Node.parts] using ⟨_, .member outer.expression_of_className⟩
  | variablePlain => simpa [Node.parts] using absent
  | variableInitial _ value => simpa [Node.parts] using ⟨_, .assignment nofun nofun nofun .name value⟩
  | function body => simpa [Node.parts] using ⟨_, body⟩
  | blueprint fields methods classes =>
    exact List.forall_mem_append.2
      ⟨List.forall_mem_append.2 ⟨all fields, all methods⟩, all classes⟩
  | branch test yes => simpa [Node.parts] using ⟨⟨_, test⟩, ⟨_, yes⟩, absent⟩
  | branchElse test yes no => simpa [Node.parts] using ⟨⟨_, test⟩, ⟨_, yes⟩, ⟨_, no⟩⟩
  | whileLoop test body => simpa [Node.parts] using ⟨⟨_, test⟩, ⟨_, body⟩⟩
  | doWhileLoop test body => simpa [Node.parts] using ⟨⟨_, test⟩, ⟨_, body⟩⟩
  | forLoop first test round body =>
    simpa [Node.parts] using ⟨⟨_, first⟩, ⟨_, test⟩, ⟨_, round⟩, ⟨_, body⟩⟩
  | body children => exact all children
  | inClass _ _ same | declared _ _ same | evaluated _ same | slotSome _ same | startVariable _ same
  | startSlot _ same => exact same

/-- Each node of a tree that fits a role fits a role. -/
theorem Fits.inside {n t : Node} (inside : n.Inside t) {role : Role} (fits : Fits numbers role t) :
    ∃ role', Fits numbers role' n := by
  induction inside generalizing role with
  | self => exact ⟨role, fits⟩
  | deeper part _ ih =>
    obtain ⟨role', fitsPart⟩ := fits.parts _ part
    exact ih fitsPart

def Numbers.all : Numbers := ⟨fun _ => True, fun _ => True⟩

/-- Each node of a program without diagnostics fits a role. -/
theorem exists_fits_of_inside {tokens : List Token} (accepted : (parseTokens tokens).2 = []) {n : Node}
    (inside : n.Inside (parseTokens tokens).1) : ∃ role, Fits .all role n := by
  have parsed : parseTokens tokens = ((parseTokens tokens).1, []) := Prod.ext rfl accepted
  obtain ⟨c', ns, read, is⟩ := parseTokens_eq_iff.1 parsed
  have symmetric : Numbers.all.Symmetric := ⟨trivial, fun _ => id, fun _ => id⟩
  have fit : ∀ n ∈ ns, Fits .all .statement n :=
    fits_of_reads symmetric read fun _ _ => ⟨fun _ _ => trivial, fun _ _ => trivial⟩
  rw [is] at inside
  exact (Fits.body fit).inside inside

end Parser

end ClassScript
