import ClassScript.Proofs.Evaluator.Calls
import ClassScript.Proofs.Interpreter.Safety
import ClassScript.Proofs.Interpreter.Spans
import ClassScript.Proofs.Parser.Nesting
import Mathlib.Logic.Relation

/-! # What errors are blamed on

The error of an accepted program stands at a node that raised it.  A call of the evaluator makes another call if
it matters to it how that one ends (`Call.Makes`), and it raises an error if it ends with the error although all
calls that it makes yield values (`Call.Raises`).  The place of an error is the span of the node that was called
when it was raised, or of one of its operands.  On its way out the error is not changed, for it has a place from
the first call on.
-/

namespace ClassScript

open EStateM (Result)

theorem Failure.blame_eq_self {f : Failure} (placed : f.span.isNone = false) (span : Span) :
    f.blame span = f := by
  simp [Failure.blame, placed]

theorem Failure.span_blame_of_isNone {f : Failure} (unplaced : f.span.isNone = true) (span : Span) :
    (f.blame span).span = span := by
  simp [Failure.blame, unplaced]

theorem Eval.eq_error_of_blaming {α : Type} {span : Span} {x : Eval α} {m m' : Machine} {f : Failure}
    (failed : blaming span x m = .error (.failure f) m') :
    ∃ f', x m = .error (.failure f') m' ∧ f = f'.blame span := by
  rw [blaming] at failed
  cases ran : x m with
  | ok a m₁ =>
    rw [ran] at failed
    cases failed
  | error stop m₁ =>
    rw [ran] at failed
    cases stop with
    | failure f' =>
      cases failed
      exact ⟨f', rfl, rfl⟩
    | host | stuck | exhausted => cases failed

namespace Evaluator

open Eval

variable {p : Node → Prop} {policy : Policy}

/-! ## Calls within calls -/

structure Call where
  budget : Nat
  node : Node
  scope : Scope
  machine : Machine

namespace Call

def outcome (policy : Policy) (c : Call) : Result Stop Machine Value :=
  eval policy c.budget c.node c.scope c.machine

/-- The second call is one level below the first, and if it ended in some other way, the rule of the first one
    would come to something else.  This says without a trace of the evaluator that the second call takes place while
    the first one goes on: a call that does not take place cannot matter, and one that does matters at least by the
    error that it might end with. -/
def Makes (policy : Policy) (outer inner : Call) : Prop :=
  outer.budget = inner.budget + 1 ∧ ∃ answer,
    rule policy (Recursion.answering (eval policy inner.budget) inner.node inner.scope inner.machine answer)
      inner.budget outer.node outer.scope outer.machine
    ≠ rule policy (eval policy inner.budget) inner.budget outer.node outer.scope outer.machine

/-- The second call is the first one, or is made by it, or by a call that is made by it, and so on. -/
def Encloses (policy : Policy) : Call → Call → Prop := Relation.ReflTransGen (Makes policy)

/-- The call ends with an error of its own.  All calls that it makes yield values, and the error stands at the
    node or at one of its operands. -/
structure Raises (policy : Policy) (c : Call) (f : Failure) (left : Machine) : Prop where
  fails : c.outcome policy = .error (.failure f) left
  inner : ∀ c', c.Makes policy c' → ∃ v m, c'.outcome policy = .ok v m
  present : c.node.isAbsent = false
  single : c.node.isTree = false
  place : f.span = c.node.span ∨ ∃ o ∈ c.node.operands, o.span = f.span

/-- The call is about code with the property only. -/
structure Holds (p : Node → Prop) (c : Call) : Prop where
  code : c.node.Throughout p
  carries : c.machine.store.Carries p

/-- An error with a place gets out of the call that makes the failing one, and has not changed. -/
theorem Makes.passes {outer inner : Call} (makes : outer.Makes policy inner) (holds : outer.Holds p) :
    inner.Holds p ∧ ∀ f m, f.span.isNone = false → inner.outcome policy = .error (.failure f) m →
      outer.outcome policy = .error (.failure f) m := by
  obtain ⟨budgets, answer, matters⟩ := makes
  have asks := rule_asking policy inner.budget holds.code outer.scope outer.machine holds.carries
  obtain ⟨code, carries, passed⟩ := asks.passes (eval_keeps policy inner.budget) matters
  refine ⟨⟨code, carries⟩, fun f m placed failed => ?_⟩
  have ran : rule policy (eval policy inner.budget) inner.budget outer.node outer.scope outer.machine
      = .error (.failure f) m := passed _ m failed
  rw [outcome, budgets, eval, blaming, ran]
  simp only [Stop.blame, Failure.blame_eq_self placed]

theorem Encloses.passes {outer inner : Call} (encloses : outer.Encloses policy inner)
    (holds : outer.Holds p) :
    inner.Holds p ∧ ∀ f m, f.span.isNone = false → inner.outcome policy = .error (.failure f) m →
      outer.outcome policy = .error (.failure f) m := by
  induction encloses with
  | refl => exact ⟨holds, fun _ _ _ => id⟩
  | tail _ makes ih =>
    obtain ⟨between, outward⟩ := ih
    obtain ⟨below, onward⟩ := makes.passes between
    exact ⟨below, fun f m placed failed => outward f m placed (onward f m placed failed)⟩

/-- An error that a rule stops with of its own accord is placed by the call of the node. -/
theorem raises_of_own {budget : Nat} {node : Node} {scope : Scope} {m left : Machine} {f : Failure}
    (failed : outcome policy ⟨budget + 1, node, scope, m⟩ = .error (.failure (f.blame node.span)) left)
    (located : node.span.isNone = false) (own : node.Raises (.failure f))
    (yields : ∀ c, Makes policy ⟨budget + 1, node, scope, m⟩ c → ∃ v m', c.outcome policy = .ok v m') :
    (f.blame node.span).span.isNone = false ∧
      Raises policy ⟨budget + 1, node, scope, m⟩ (f.blame node.span) left := by
  cases unplaced : f.span.isNone with
  | true =>
    have place := Failure.span_blame_of_isNone unplaced node.span
    rw [place]
    exact ⟨located, failed, yields, own.present, own.single, .inl place⟩
  | false =>
    rw [Failure.blame_eq_self unplaced] at failed ⊢
    refine ⟨unplaced, failed, yields, own.present, own.single, ?_⟩
    rcases own.within with nowhere | operand
    · rw [nowhere] at unplaced
      cases unplaced
    · exact .inr operand

/-- If all nodes but sequences of statements have places, then so has every error, and some call within the
    failed one raised it. -/
theorem exists_raises
    (located : ∀ n, p n → n.isAbsent = false → n.isTree = false → n.span.isNone = false) {c : Call}
    (holds : c.Holds p) {f : Failure} {left : Machine}
    (failed : c.outcome policy = .error (.failure f) left) :
    f.span.isNone = false ∧ ∃ origin, c.Encloses policy origin ∧ origin.Raises policy f left := by
  obtain ⟨budget, node, scope, m⟩ := c
  induction budget generalizing node scope m f with
  | zero => cases failed
  | succ budget ih =>
    have asks := rule_asking policy budget holds.code scope m holds.carries
    obtain ⟨f', ran, rfl⟩ := eq_error_of_blaming failed
    rcases asks.origin (eval_keeps policy budget) ran with own | called
    · obtain ⟨raises, yields⟩ := own
      have here := located node holds.code.own raises.present raises.single
      obtain ⟨placed, raised⟩ := raises_of_own failed here raises (by
        rintro ⟨budget', node', scope', m'⟩ ⟨budgets, answer, matters⟩
        cases budgets
        exact yields node' scope' m' answer matters)
      exact ⟨placed, _, .refl, raised⟩
    · obtain ⟨node', scope', m', code, carries, failed', otherwise⟩ := called
      obtain ⟨placed, origin, encloses, raises⟩ :=
        ih node' scope' m' ⟨code, carries⟩ failed'
      rw [Failure.blame_eq_self placed]
      have makes : Makes policy ⟨budget + 1, node, scope, m⟩ ⟨budget, node', scope', m'⟩ := by
        -- The call failed, so the rule would end differently had it got stuck.
        refine ⟨rfl, .error .stuck m', fun same => ?_⟩
        cases (otherwise .stuck m').symm.trans (same.trans ran)
      exact ⟨placed, origin, .head makes encloses, raises⟩

end Call

end Evaluator

/-! ## Accepted programs -/

namespace Parser

variable {numbers : Numbers}

/-- Sequences of statements are bodies and nothing else. -/
theorem Fits.isTree_eq_false {role : Role} {n : Node} (fits : Fits numbers role n) (other : role ≠ .body) :
    n.isTree = false := by
  induction fits with
  | body => exact absurd rfl other
  | inClass _ _ same | declared _ _ same | evaluated _ same | slotSome _ same | startVariable _ same
  | startSlot _ same => exact same (by simp)
  | _ => rfl

theorem Fits.isTree_of_mem_operands {role : Role} {n : Node} (fits : Fits numbers role n) :
    ∀ o ∈ n.operands, o.isTree = false := by
  have all {role : Role} {ns : List Node} (fit : ∀ n ∈ ns, Fits numbers role n) (other : role ≠ .body) :
      ∀ n ∈ ns, n.isTree = false := fun n here => (fit n here).isTree_eq_false other
  have one {role : Role} {n : Node} (fit : Fits numbers role n) (other : role ≠ .body) :
      ∀ o ∈ [n], o.isTree = false := all (by simpa using fit) other
  induction fits with
  | binary _ left right =>
    exact List.forall_mem_cons.2 ⟨left.isTree_eq_false (by simp), one right (by simp)⟩
  | assignment _ _ _ _ value => exact one value (by simp)
  | callName callee arguments =>
    exact List.forall_mem_cons.2 ⟨callee.isTree_eq_false (by simp), all arguments (by simp)⟩
  | callValue callee _ arguments =>
    exact List.forall_mem_cons.2 ⟨callee.isTree_eq_false (by simp), all arguments (by simp)⟩
  | instantiation blueprint => exact one blueprint (by simp)
  | member receiver => exact one receiver (by simp)
  | blueprint _ methods => exact all methods (by simp)
  | branch test | branchElse test | whileLoop test | doWhileLoop test => exact one test (by simp)
  | forLoop _ test => exact one test (by simp)
  | inClass _ _ same | declared _ _ same | evaluated _ same | slotSome _ same | startVariable _ same
  | startSlot _ same => exact same
  | _ => simp [Node.operands, Node.isTree]

end Parser

/-- The node is a part of one of the trees.  Unless it is a sequence of statements it has a place, and so have the
    operands that it blames. -/
structure Node.Sited (trees : List Node) (n : Node) : Prop where
  inside : n.isAbsent = false → ∃ t ∈ trees, n.Inside t
  located : n.isAbsent = false → n.isTree = false → n.span.isNone = false
  operands : ∀ o ∈ n.operands, o.isTree = false

theorem Node.sited_absent (trees : List Node) : Node.absent.Throughout (Sited trees) := by
  have missing : Node.absent.isAbsent = true := rfl
  refine throughout_iff.2 ⟨⟨?_, ?_, ?_⟩, ?_⟩
  · simp [missing]
  · simp [missing]
  · simp [operands]
  · simp [parts]

theorem Node.isAbsent_eq_false_of_isNone {n : Node} (placed : n.span.isNone = false) : n.isAbsent = false := by
  cases n with
  | absent => cases placed
  | _ => rfl

theorem Node.Sited.exists_source {sources : List (List UInt8)} {n : Node}
    (sited : n.Sited (sources.map fun s => (parseSource s).1)) (present : n.isAbsent = false) :
    ∃ s ∈ sources, n.Inside (parseSource s).1 := by
  obtain ⟨t, member, inside⟩ := sited.inside present
  obtain ⟨s, here, rfl⟩ := List.mem_map.1 member
  exact ⟨s, here, inside⟩

/-- The nodes of an accepted program have places, the program itself aside. -/
theorem isNone_eq_false_of_inside {source : List UInt8} (accepted : (parseSource source).2 = []) {n : Node}
    (inside : n.Inside (parseSource source).1) (present : n.isAbsent = false) (single : n.isTree = false) :
    n.span.isNone = false := by
  obtain ⟨_, tree, parsed, is⟩ := parseSource_clean accepted
  obtain ⟨c', ns, read, rfl⟩ := parseTokens_eq_iff.1 parsed
  have lines := (Cursor.among_start source).stay.pastSeparators
  obtain ⟨_, all⟩ := read.laid lines.here
  rw [is] at inside
  cases inside with
  | self => cases single
  | deeper here inside =>
    have orderly := (all.each _ here).nested n inside present
    have line := orderly.lines.1
    simp only [Span.isNone, Position.isValid, Bool.not_eq_false', decide_eq_true_eq]
    omega

theorem Node.sited_of_accepted {sources : List (List UInt8)}
    (accepted : ∀ source ∈ sources, (parseSource source).2 = []) {source : List UInt8}
    (here : source ∈ sources) :
    (parseSource source).1.Throughout (Sited (sources.map fun source => (parseSource source).1)) := by
  intro n inside
  refine ⟨fun _ => ⟨_, List.mem_map_of_mem here, inside⟩, fun present single => ?_, ?_⟩
  · exact isNone_eq_false_of_inside (accepted source here) inside present single
  · obtain ⟨_, tree, parsed, is⟩ := parseSource_clean (accepted source here)
    have clean : (parseTokens (tokenize source).1).2 = [] := by rw [parsed]
    rw [is] at inside
    have inside' : n.Inside (parseTokens (tokenize source).1).1 := by rwa [parsed]
    obtain ⟨role, fits⟩ := Parser.exists_fits_of_inside clean inside'
    exact fits.isTree_of_mem_operands

namespace Interpreter

open Eval Evaluator

variable {p : Node → Prop}

theorem evaluate_carries (policy : Policy) {node : Node} (code : node.Throughout p) {m : Machine}
    (carries : m.store.Carries p) : (evaluate policy node m).2.store.Carries p := by
  have left := eval_keeps policy budget node m.root m code carries
  rw [evaluate_eq_ofResult]
  cases ran : eval policy budget node m.root m with
  | ok v m' =>
    rw [ran] at left
    exact left.1
  | error stop m' =>
    rw [ran] at left
    exact left

theorem runEach_carries (policy : Policy) {programs : List Node} (code : ∀ t ∈ programs, t.Throughout p)
    {m : Machine} (carries : m.store.Carries p) : (runEach policy programs m).2.store.Carries p := by
  induction programs generalizing m with
  | nil => exact carries
  | cons program rest ih =>
    obtain ⟨codeFirst, codeRest⟩ := List.forall_mem_cons.1 code
    exact ih codeRest (evaluate_carries policy codeFirst carries)

def Outcome.failure? : Outcome → Option Failure
  | .stopped (.failure f) => some f
  | _ => none

theorem Outcome.eq_stopped_of_failure? {outcome : Outcome} {f : Failure} (fails : outcome.failure? = some f) :
    outcome = .stopped (.failure f) := by
  cases outcome with
  | value => cases fails
  | stopped stop =>
    cases stop with
    | failure f' =>
      cases fails
      rfl
    | host | stuck | exhausted => cases fails

def runCall (program : Node) (m : Machine) : Call := ⟨budget, program, m.root, m⟩

theorem evaluate_eq_stopped {policy : Policy} {program : Node} {m m' : Machine} {stop : Stop} :
    evaluate policy program m = (.stopped stop, m') ↔
      (runCall program m).outcome policy = .error stop m' := by
  rw [evaluate_eq_ofResult, Call.outcome, runCall]
  cases eval policy budget program m.root m with
  | ok v m₁ => simp [Outcome.ofResult]
  | error stop₁ m₁ =>
    constructor
    · intro same
      cases same
      rfl
    · intro same
      cases same
      rfl

/-- The run of an accepted program, after others, is about nodes of these programs only. -/
theorem runCall_holds (policy : Policy) (extra : List Builtin) {before : List (List UInt8)}
    {source : List UInt8} (accepted : ∀ s ∈ before ++ [source], (parseSource s).2 = []) :
    (runCall (parseSource source).1
      (runEach policy (before.map fun s => (parseSource s).1) (start extra)).2).Holds
      (Node.Sited ((before ++ [source]).map fun s => (parseSource s).1)) := by
  refine ⟨Node.sited_of_accepted accepted (by simp), runEach_carries policy (fun t here => ?_) ?_⟩
  · obtain ⟨s, earlier, rfl⟩ := List.mem_map.1 here
    exact Node.sited_of_accepted accepted (List.mem_append_left _ earlier)
  · exact start_carries (Node.sited_absent _) extra

/-- What a call within the run raises stands at a node of a program. -/
theorem exists_node_of_raises {policy : Policy} {sources : List (List UInt8)} {c : Call} {f : Failure}
    {m : Machine} (raises : c.Raises policy f m) (placed : f.span.isNone = false)
    (holds : c.Holds (Node.Sited (sources.map fun s => (parseSource s).1))) :
    ∃ s ∈ sources, ∃ n : Node, n.Inside (parseSource s).1 ∧ n.isTree = false ∧ n.span = f.span := by
  have own := holds.code.own
  rcases raises.place with here | operand
  · obtain ⟨s, member, inside⟩ := own.exists_source raises.present
    exact ⟨s, member, c.node, inside, raises.single, here.symm⟩
  · obtain ⟨o, below, same⟩ := operand
    have present : o.isAbsent = false := Node.isAbsent_eq_false_of_isNone (by rw [same]; exact placed)
    have sited := (holds.code.part (Node.mem_parts_of_mem_operands below)).own
    obtain ⟨s, member, inside⟩ := sited.exists_source present
    exact ⟨s, member, o, inside, own.operands o below, same⟩

/-- Programs without diagnostics are run one after another.  If the last one fails, the error has a place, which is
    the span of a node of one of the programs, and some call within the run raised it there.  And if any call within
    the run ends with an error that has a place, then so do all calls around it, up to the run itself. -/
theorem failure_blamed (policy : Policy) (extra : List Builtin) {before : List (List UInt8)}
    {source : List UInt8} (accepted : ∀ s ∈ before ++ [source], (parseSource s).2 = []) :
    let program := (parseSource source).1
    let m := (runEach policy (before.map fun s => (parseSource s).1) (start extra)).2
    (∀ f m', evaluate policy program m = (.stopped (.failure f), m') →
      f.span.isNone = false ∧
      (∃ s ∈ before ++ [source], ∃ n : Node,
        n.Inside (parseSource s).1 ∧ n.isTree = false ∧ n.span = f.span) ∧
      ∃ origin, (runCall program m).Encloses policy origin ∧ origin.Raises policy f m') ∧
    ∀ outer inner, (runCall program m).Encloses policy outer → outer.Encloses policy inner →
      ∀ f m', f.span.isNone = false → inner.outcome policy = .error (.failure f) m' →
        outer.outcome policy = .error (.failure f) m' ∧
        evaluate policy program m = (.stopped (.failure f), m') := by
  intro program m
  have holds := runCall_holds policy extra accepted
  constructor
  · intro f m' failed
    obtain ⟨placed, origin, encloses, raises⟩ := Call.exists_raises
      (fun n sited => sited.located) holds (evaluate_eq_stopped.1 failed)
    have within := (encloses.passes holds).1
    exact ⟨placed, exists_node_of_raises raises placed within, origin, encloses, raises⟩
  · intro outer inner run encloses f m' placed failed
    -- Outwards in two steps: from the inner call to the outer one, and from there to the run.
    obtain ⟨holdsOuter, outward⟩ := run.passes holds
    have reaches := (encloses.passes holdsOuter).2 f m' placed failed
    exact ⟨reaches, evaluate_eq_stopped.2 (outward f m' placed reaches)⟩

def nextText : List UInt8 := "function next(n) \x7b\n print(n + 1)\n\x7d".toUTF8.data.toList

def nextCalls : List UInt8 := "next(3)\nnext(next)".toUTF8.data.toList

def nextFailure : Failure := ⟨.operands .add .function .integer, ⟨⟨26, 2, 8⟩, ⟨31, 2, 13⟩⟩⟩

theorem failure_blamed_nextCalls :
    let program := (parseSource nextCalls).1
    let m := (runEach {} ([nextText].map fun s => (parseSource s).1) (start [])).2
    (∀ s ∈ [nextText] ++ [nextCalls], (parseSource s).2 = []) ∧
    ∃ m', evaluate {} program m = (.stopped (.failure nextFailure), m') ∧
      (∃ s ∈ [nextText] ++ [nextCalls], ∃ n : Node,
        n.Inside (parseSource s).1 ∧ n.isTree = false ∧ n.span = nextFailure.span) ∧
      ∃ origin, origin.Raises {} nextFailure m' ∧
        ∀ outer, (runCall program m).Encloses {} outer → outer.Encloses {} origin →
          outer.outcome {} = .error (.failure nextFailure) m' := by
  intro program m
  have accepted : ∀ s ∈ [nextText] ++ [nextCalls], (parseSource s).2 = [] := by decide +kernel
  have fails : (evaluate {} program m).1.failure? = some nextFailure := by decide +kernel
  have stopped := Outcome.eq_stopped_of_failure? fails
  obtain ⟨blamed, passed⟩ := failure_blamed {} [] accepted
  obtain ⟨placed, place, origin, _, raises⟩ := blamed nextFailure _ (Prod.ext stopped rfl)
  refine ⟨accepted, _, Prod.ext stopped rfl, place, origin, raises, fun outer run encloses => ?_⟩
  exact (passed outer origin run encloses nextFailure _ placed raises.fails).1

end Interpreter

end ClassScript
