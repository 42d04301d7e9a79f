import ClassScript.Proofs.Interpreter.Reachable
import ClassScript.Proofs.Parser.Parts

/-! # Declarations are local

An evaluation declares variables in no scope that was there before but the one it runs in, and takes none
away.  In that one it declares only for declarations and for statements in order: all other nodes of a
program without diagnostics leave the names of every scope alone, since what a parser puts into their
conditions, arguments and operands are expressions (`quiet_of_fits`).  A tree that a host builds may have
a declaration there, and then the scope does get new names.
-/

namespace ClassScript

def Node.declares : Node → Bool
  | .tree .. | .variableDeclaration .. | .functionDeclaration .. | .classDeclaration .. => true
  | _ => false

namespace Parser

def Role.isSilent : Role → Bool
  | .expression | .target | .className | .slot => true
  | _ => false

variable {numbers : Numbers} {role : Role} {n : Node}

theorem Fits.declares_eq_false (fits : Fits numbers role n) (silent : role.isSilent = true) :
    n.declares = false := by
  induction fits with
  | slotSome _ same => exact same rfl
  | inClass | declared | evaluated | startVariable | startSlot => cases silent
  | variablePlain | variableInitial | function | blueprint | body => cases silent
  | _ => rfl

/-- Of the trees that fit a role, only declarations and statements in order declare anything. -/
theorem quiet_of_fits (fits : Fits numbers role n) (plain : n.declares = false) : n.Quiet := by
  induction fits with
  | integer | double | boolean | null | slotNone => constructor
  | usage fitTarget target => exact .usage _ (target (fitTarget.declares_eq_false rfl))
  | binary _ fitLeft fitRight left right =>
    exact .binary _ _ (left (fitLeft.declares_eq_false rfl)) (right (fitRight.declares_eq_false rfl))
  | step _ fitTarget target => exact .assignment _ _ (target (fitTarget.declares_eq_false rfl)) .absent
  | assignment _ _ _ fitTarget fitValue target value =>
    exact .assignment _ _ (target (fitTarget.declares_eq_false rfl)) (value (fitValue.declares_eq_false rfl))
  | callName fitCallee fitArguments callee arguments
  | callValue fitCallee _ fitArguments callee arguments =>
    exact .call _ (callee (fitCallee.declares_eq_false rfl)) fun argument member =>
      arguments argument member ((fitArguments argument member).declares_eq_false rfl)
  | instantiation fitBlueprint _ blueprint =>
    exact .instantiation _ _ (blueprint (fitBlueprint.declares_eq_false rfl))
  | name => exact .identifier _ _ .absent
  | member fitReceiver receiver => exact .identifier _ _ (receiver (fitReceiver.declares_eq_false rfl))
  | plainName => exact .usage _ (.identifier _ _ .absent)
  | nestedName fitOuter outer =>
    exact .usage _ (.identifier _ _ (outer (fitOuter.declares_eq_false rfl)))
  | variablePlain | variableInitial | function | blueprint | body => cases plain
  | inClass _ _ same | declared _ _ same | evaluated _ same | slotSome _ same | startVariable _ same
  | startSlot _ same => exact same plain
  | branch | branchElse | forLoop => constructor
  | whileLoop fitTest _ test => exact .whileLoop _ _ (test (fitTest.declares_eq_false rfl))
  | doWhileLoop fitTest _ test => exact .doWhileLoop _ _ (test (fitTest.declares_eq_false rfl))

end Parser

namespace Interpreter

open Machine

/-- How the scopes of a machine may change when something is evaluated in one of them. -/
structure Local (scope : Scope) (m m' : Machine) : Prop where
  /-- The scopes stay. -/
  scopes : ∀ other ∈ m.store.scopes, other ∈ m'.store.scopes
  /-- Every other scope keeps its names in their order. -/
  others : ∀ other ∈ m.store.scopes, other ≠ scope →
    (m'.store.declared other).names = (m.store.declared other).names
  /-- In the scope itself, new names come behind the old ones. -/
  own : (m.store.declared scope).names <+: (m'.store.declared scope).names
  /-- Variables stay where they are, with their types, and one that has a value keeps having one. -/
  slots : ∀ other ∈ m.store.scopes, ∀ v ∈ m.store.declared other,
    ∃ v' ∈ m'.store.declared other,
      v'.name = v.name ∧ v'.type = v.type ∧ (v.value.isSome → v'.value.isSome)

theorem local_of_follows {m m' : Machine} (sound : m.Sound) {scope : Scope} (here : scope ∈ m.store.scopes)
    (follows : m.Follows (· = scope.table) m') : Local scope m m' where
  scopes := fun _ there => follows.grown.mem there
  others := fun _ there apart => (follows.grown.tables _ (sound.table_lt there)).same fun same =>
    apart (sound.eq_of_table there here same)
  own := (follows.grown.tables _ (sound.table_lt here)).names
  slots := fun _ there => (follows.grown.tables _ (sound.table_lt there)).stays

/-- Whatever is evaluated in a scope of a machine that a host can get to, it declares there at most, and
    every variable stays.  A node of a program without diagnostics that is no declaration and no sequence
    of statements, such as a loop, a branch, a call, an instantiation or an assignment, declares nothing
    there either. -/
theorem evaluation_local {extra : List Builtin} {m : Machine} (reachable : Reachable extra m) (policy : Policy)
    (budget : Nat) (node : Node) {scope : Scope} (here : scope ∈ m.store.scopes) :
    let m' := Eval.after (Evaluator.eval policy budget node scope) m
    Local scope m m' ∧
      ∀ tokens, (parseTokens tokens).2 = [] → node.Inside (parseTokens tokens).1 →
        node.declares = false →
        (m'.store.declared scope).names = (m.store.declared scope).names := by
  have sound := reachable.sound
  have leads {own : TableId → Prop} (may : ¬ node.Quiet → own scope.table) :=
    (Evaluator.eval_leads policy budget node ⟨sound, here⟩ may).follows
  refine ⟨local_of_follows sound here (leads fun _ => rfl), fun tokens accepted inside plain => ?_⟩
  obtain ⟨role, fits⟩ := Parser.exists_fits_of_inside accepted inside
  have quiet : node.Quiet := Parser.quiet_of_fits fits plain
  -- A quiet node may be evaluated as if no old table could grow, not even that of its scope.
  have follows : m.Follows (fun _ => False) _ := leads fun loud => loud quiet
  exact (follows.grown.tables _ (sound.table_lt here)).same id

-- A condition that no source has: there the loop does declare.
example :
    let loop : Node := .whileLoop .none (.variableDeclaration .none {} "x" .dynamic .absent) .absent
    let m := Eval.after (Evaluator.eval {} budget loop (start []).root) (start [])
    (m.store.declared m.root).names = ((start []).store.declared m.root).names ++ ["x"] := by
  decide +kernel

theorem inside_of_parts (source : List UInt8) (one : (parseSource source).1.parts.length = 1) :
    ((parseSource source).1.parts.headD .absent).Inside (parseTokens (tokenize source).1).1 := by
  obtain ⟨only, is⟩ := List.length_eq_one_iff.1 one
  refine .deeper ?_ .self
  rw [show (parseTokens (tokenize source).1).1.parts = [only] from is]
  exact List.mem_singleton.2 (congrArg (·.headD .absent) is)

def counterClass : List UInt8 :=
  "class Counter \x7b\n var total = 0\n".toUTF8.data.toList ++
    "function add(n) \x7b for (int i = 0; i < n; i++) \x7b int d = i\n total += d \x7d \x7d \x7d\n".toUTF8.data.toList ++
    "var c = new Counter()".toUTF8.data.toList

def counterLoop : List UInt8 := "while (c.total < 4) \x7b int n = 3\n c.add(n) \x7d".toUTF8.data.toList

theorem evaluation_local_counterLoop :
    let m := (evaluate {} (parseSource counterClass).1 (start [])).2
    let loop := (parseSource counterLoop).1.parts.headD .absent
    let m' := Eval.after (Evaluator.eval {} budget loop m.root) m
    Reachable [] m ∧ (parseTokens (tokenize counterLoop).1).2 = [] ∧
      loop.Inside (parseTokens (tokenize counterLoop).1).1 ∧ loop.declares = false ∧
      m.store.scopes.size < m'.store.scopes.size ∧ Local m.root m m' ∧
      (m'.store.declared m.root).names = (m.store.declared m.root).names := by
  intro m loop m'
  have reachable : Reachable [] m := Reachable.start.evaluate {} _
  have accepted : (parseTokens (tokenize counterLoop).1).2 = [] := by decide +kernel
  have plain : loop.declares = false := by decide +kernel
  have inside := inside_of_parts counterLoop (by decide +kernel)
  have grown : m.store.scopes.size < m'.store.scopes.size := by decide +kernel
  obtain ⟨localized, silent⟩ := evaluation_local reachable {} budget loop reachable.sound.rooted.1
  exact ⟨reachable, accepted, inside, plain, grown, localized, silent _ accepted inside plain⟩

end Interpreter

end ClassScript
