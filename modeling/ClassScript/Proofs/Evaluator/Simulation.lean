import ClassScript.Proofs.Store.Code

/-! # Two ways to evaluate the same code

`Matches p strict x x' Q` compares two evaluations from any machine whose code has the property `p`: where `x`
yields something, `x'` yields the same and leaves the same machine, and what is yielded has the property `Q`.
If the comparison is strict, `x'` also stops where `x` stops and for the same reason.  Either way `x` is never
stuck, and leaves a machine whose code still has the property.

The rules of evaluation keep such a match, from the nodes right below a node to the node itself
(`rule_matches`).  Two ways to evaluate can differ only in their logical operators, which are compared
elsewhere.
-/

namespace ClassScript

namespace Eval

variable {α β : Type} {p : Node → Prop} {strict : Prop} {Q : α → Prop} {R : β → Prop}

/-- The second evaluation does what the first one does, and what that yields has the property `Q`. -/
def Matches (p : Node → Prop) (strict : Prop) (x x' : Eval α) (Q : α → Prop) : Prop :=
  ∀ m : Machine, m.store.Carries p → match x m with
    | .ok a m' => x' m = .ok a m' ∧ m'.store.Carries p ∧ Q a
    | .error stop m' => (strict → x' m = .error stop m') ∧ m'.store.Carries p ∧ stop ≠ .stuck

/-! ## Steps -/

theorem matches_pure {a : α} (holds : Q a) : Matches p strict (pure a) (pure a) Q :=
  fun _ carries => ⟨rfl, carries, holds⟩

theorem matches_throw {stop : Stop} (moving : stop ≠ .stuck) :
    Matches p strict (throw stop) (throw stop) Q :=
  fun _ carries => ⟨fun _ => rfl, carries, moving⟩

theorem matches_fail (fault : Fault) : Matches p strict (fail fault) (fail fault) Q :=
  matches_throw nofun

theorem Matches.bind {x x' : Eval α} {k k' : α → Eval β} (first : Matches p strict x x' Q)
    (rest : ∀ a, Q a → Matches p strict (k a) (k' a) R) :
    Matches p strict (x >>= k) (x' >>= k') R := by
  intro m carries
  have begun := first m carries
  cases ran : x m with
  | ok a m' =>
    rw [ran] at begun
    obtain ⟨same, carries', holds⟩ := begun
    simp only [bind_apply, ran, same]
    exact rest a holds m' carries'
  | error stop m' =>
    rw [ran] at begun
    obtain ⟨same, carries', moving⟩ := begun
    simp only [bind_apply, ran]
    refine ⟨fun strictly => ?_, carries', moving⟩
    rw [same strictly]

theorem Matches.mono {Q' : α → Prop} {x x' : Eval α} (agrees : Matches p strict x x' Q)
    (weaker : ∀ a, Q a → Q' a) : Matches p strict x x' Q' := by
  intro m carries
  have agrees := agrees m carries
  cases ran : x m with
  | ok a m' =>
    rw [ran] at agrees
    exact ⟨agrees.1, agrees.2.1, weaker a agrees.2.2⟩
  | error stop m' =>
    rw [ran] at agrees
    exact agrees

theorem Matches.blaming {x x' : Eval α} (agrees : Matches p strict x x' Q) (span : Span) :
    Matches p strict (blaming span x) (Eval.blaming span x') Q := by
  intro m carries
  have agrees := agrees m carries
  simp only [Eval.blaming]
  cases ran : x m with
  | ok a m' =>
    rw [ran] at agrees
    exact ⟨by rw [agrees.1], agrees.2⟩
  | error stop m' =>
    rw [ran] at agrees
    refine ⟨fun strictly => by rw [agrees.1 strictly], agrees.2.1, ?_⟩
    -- Blame changes failures only, so it makes nothing stuck.
    cases stop with
    | stuck => exact absurd rfl agrees.2.2
    | _ => simp [Stop.blame]

theorem matches_ofExcept {r : Except Fault α} (holds : ∀ a, r = .ok a → Q a) :
    Matches p strict (ofExcept r) (ofExcept r) Q := by
  cases r with
  | ok a => exact matches_pure (holds a rfl)
  | error fault => exact matches_fail fault

theorem matches_query {q : Store → Except Fault α}
    (holds : ∀ s : Store, s.Carries p → ∀ a, q s = .ok a → Q a) :
    Matches p strict (query q) (query q) Q :=
  fun m carries => matches_ofExcept (holds m.store carries) m carries

theorem matches_get : Matches p strict get get fun m => m.store.Carries p :=
  fun _ carries => ⟨rfl, carries, carries⟩

theorem matches_write (slot : Slot) {v : Value} (code : v.Carries p) :
    Matches p strict (write slot v) (write slot v) fun _ => True :=
  fun _ carries => ⟨rfl, carries.write slot code, trivial⟩

theorem matches_declare (scope : Scope) (name : String) (type : DeclaredType) :
    Matches p strict (declare scope name type) (declare scope name type) fun slot => slot.Carries p := by
  intro m carries
  by_cases taken : (m.store.declared scope).has name
  · simp only [declare, taken, if_true]
    exact ⟨fun _ => rfl, carries, nofun⟩
  · simp only [declare, taken]
    exact ⟨rfl, carries.add scope.table name type, trivial⟩

theorem matches_nested (scope : Scope) : Matches p strict (nested scope) (nested scope) fun _ => True :=
  fun _ carries => ⟨rfl, carries.grow _, trivial⟩

theorem matches_stamp : Matches p strict stamp stamp fun _ => True :=
  fun _ carries => ⟨rfl, carries, trivial⟩

theorem matches_note (event : Event) : Matches p strict (note event) (note event) fun _ => True :=
  fun _ carries => ⟨rfl, carries, trivial⟩

theorem matches_emit {policy policy' : Policy} (limits : policy'.outputLimit = policy.outputLimit)
    (text : String) : Matches p strict (emit policy text) (emit policy' text) fun _ => True := by
  intro m carries
  have same : fits policy' m text = fits policy m text := by simp only [fits, limits]
  by_cases room : fits policy m text
  · simpa only [emit, same, room, if_true, true_and, and_true] using carries
  · simpa [emit, same, room] using carries

theorem matches_rounds {round round' : Eval Bool}
    (one : Matches p strict round round' fun _ => True) (budget : Nat) :
    Matches p strict (rounds budget round) (rounds budget round') fun _ => True := by
  induction budget with
  | zero => exact matches_throw nofun
  | succ budget ih =>
    refine one.bind fun more _ => ?_
    cases more with
    | true => exact ih
    | false => exact matches_pure trivial

end Eval

/-! ## Rules -/

namespace Evaluator

open Eval

/-- Two ways to evaluate nodes match on all code that has the property, where names yield variables. -/
def Recursion.Matches (p : Node → Prop) (strict : Prop) (rec rec' : Recursion) : Prop :=
  ∀ node scope, node.Throughout p → Eval.Matches p strict (rec node scope) (rec' node scope) fun v =>
    v.Carries p ∧ (node.isName → ∃ slot, v = .slot slot)

section Rules

variable {p : Node → Prop} {strict : Prop} {rec rec' : Recursion}
  (below : Recursion.Matches p strict rec rec')

include below

theorem value_matches {node : Node} (code : node.Throughout p) (scope : Scope) :
    Matches p strict (value rec node scope) (value rec' node scope) fun v => v.Keeps p := by
  refine (below node scope code).bind fun v carries => Matches.blaming ?_ node.span
  exact matches_query fun s carried x found => carried.plain carries.1 found

theorem values_matches {nodes : List Node} (code : ∀ n ∈ nodes, n.Throughout p) (scope : Scope) :
    Matches p strict (values rec scope nodes) (values rec' scope nodes) fun vs => ∀ v ∈ vs, v.Keeps p := by
  induction nodes with
  | nil => exact matches_pure (List.forall_mem_nil _)
  | cons node rest ih =>
    obtain ⟨codeFirst, codeRest⟩ := List.forall_mem_cons.1 code
    refine (value_matches below codeFirst scope).bind fun v kept => ?_
    refine (ih codeRest).bind fun vs all => ?_
    exact matches_pure (List.forall_mem_cons.2 ⟨kept, all⟩)

omit below in
theorem each_matches {nodes : List Node} {scope : Scope}
    (all : ∀ n ∈ nodes, Matches p strict (rec n scope) (rec' n scope) fun _ => True) :
    Matches p strict (each rec scope nodes) (each rec' scope nodes) fun _ => True := by
  induction nodes with
  | nil => exact matches_pure trivial
  | cons node rest ih =>
    obtain ⟨first, others⟩ := List.forall_mem_cons.1 all
    exact first.bind fun _ _ => ih others

theorem condition_matches {node : Node} (code : node.Throughout p) (scope : Scope) :
    Matches p strict (condition rec node scope) (condition rec' node scope) fun _ => True := by
  simp only [condition]
  split
  · exact matches_pure trivial
  · refine (value_matches below code scope).bind fun v _ => Matches.blaming ?_ node.span
    exact matches_ofExcept fun _ _ => trivial

theorem target_matches {node : Node} (code : node.Throughout p) (named : node.isName) (scope : Scope) :
    Matches p strict (target rec node scope) (target rec' node scope) fun slot => slot.Carries p := by
  cases node with
  | identifier span parent name =>
    refine (below _ scope code).bind fun v yields => ?_
    obtain ⟨carries, isSlot⟩ := yields
    obtain ⟨slot, rfl⟩ := isSlot named
    exact matches_pure carries
  | _ => cases named

theorem statements_matches {nodes : List Node} (code : ∀ n ∈ nodes, n.Throughout p) (scope : Scope)
    {result : Value} (carries : result.Carries p) :
    Matches p strict (statements rec scope result nodes) (statements rec' scope result nodes)
      fun v => v.Carries p := by
  induction nodes generalizing result with
  | nil => exact matches_pure carries
  | cons node rest ih =>
    obtain ⟨codeFirst, codeRest⟩ := List.forall_mem_cons.1 code
    exact (below node scope codeFirst).bind fun v yields => ih codeRest yields.1

theorem rightOperand_matches (op : BinaryOp) (l : Value) {right : Node} (code : right.Throughout p)
    (scope : Scope) :
    Matches p strict (do let r ← value rec right scope; Eval.ofExcept (Operation.apply op l r))
      (do let r ← value rec' right scope; Eval.ofExcept (Operation.apply op l r)) fun v => v.Carries p :=
  (value_matches below code scope).bind fun _ _ =>
    matches_ofExcept fun _ found => Operation.carries_of_apply found

theorem binary_matches (policy : Policy) (op : BinaryOp) {left right : Node}
    (codeLeft : left.Throughout p) (codeRight : right.Throughout p) (scope : Scope) :
    Matches p strict (binary policy rec op left right scope) (binary policy rec' op left right scope)
      fun v => v.Carries p := by
  refine (value_matches below codeLeft scope).bind fun l kept => ?_
  have both := rightOperand_matches below op l codeRight scope
  dsimp only
  split
  · cases l with
    | boolean b =>
      dsimp only
      split
      · exact matches_pure trivial
      · exact both
    | _ => exact (matches_fail (Q := fun _ => True) _).bind fun _ _ => both
  · exact both

theorem identifier_matches {parent : Node} (code : parent.Throughout p) (name : String) (scope : Scope) :
    Matches p strict (identifier rec parent name scope) (identifier rec' parent name scope)
      fun v => v.Carries p ∧ ∃ slot, v = .slot slot := by
  have slot {q : Store → Except Fault Slot} (holds : ∀ s slot, q s = .ok slot → slot.Carries p) :
      Matches p strict (do return Value.slot (← Eval.query q)) (do return Value.slot (← Eval.query q))
        fun v => v.Carries p ∧ ∃ slot, v = .slot slot :=
    (matches_query fun s _ => holds s).bind fun slot carries => matches_pure ⟨carries, slot, rfl⟩
  simp only [identifier]
  split
  · exact slot fun _ _ found => Store.carries_of_lookup found
  · refine (value_matches below code scope).bind fun v kept => ?_
    cases v with
    | blueprint c => exact slot fun _ _ found => Store.carries_of_classMember found
    | object o => exact slot fun _ _ found => Store.carries_of_objectMember kept.2 found
    | _ => exact matches_fail _

theorem usage_matches {node : Node} (code : node.Throughout p) (named : node.isName) (scope : Scope) :
    Matches p strict (usage rec node scope) (usage rec' node scope) fun v => v.Carries p := by
  refine (target_matches below code named scope).bind fun slot carries => ?_
  exact matches_query fun s carried x found => (carried.read carries found).2

theorem assignment_matches (op : AssignOp) {variableNode operandNode : Node}
    (codeTarget : variableNode.Throughout p) (named : variableNode.isName)
    (codeOperand : operandNode.Throughout p) (scope : Scope) :
    Matches p strict (assignment rec op variableNode operandNode scope)
      (assignment rec' op variableNode operandNode scope) fun v => v.Carries p := by
  refine (target_matches below codeTarget named scope).bind fun slot _ => ?_
  have store (v : Value) (carries : v.Carries p) : Matches p strict
      (do Eval.write slot v; return v) (do Eval.write slot v; return v) fun v => v.Carries p :=
    (matches_write slot carries).bind fun _ _ => matches_pure carries
  cases op.arithmetic? with
  | none =>
    dsimp only
    split
    · exact store (.integer 1) trivial
    · exact (value_matches below codeOperand scope).bind fun operand kept => store operand kept.2
  | some arithmetic =>
    have combine (operand : Value) : Matches p strict
        (do
          let result ← Eval.ofExcept (Operation.apply arithmetic (← Eval.query (·.read slot)) operand)
          Eval.write slot result
          return result)
        (do
          let result ← Eval.ofExcept (Operation.apply arithmetic (← Eval.query (·.read slot)) operand)
          Eval.write slot result
          return result) fun v => v.Carries p := by
      refine (matches_query (Q := fun _ => True) fun _ _ _ _ => trivial).bind fun current _ => ?_
      refine (matches_ofExcept (Q := fun v => v.Carries p) fun _ found => ?_).bind store
      exact Operation.carries_of_apply found
    dsimp only
    split
    · exact combine (.integer 1)
    · exact (value_matches below codeOperand scope).bind fun operand _ => combine operand

/-! ### Calls -/

omit below in
theorem bindAll_matches (frame : Scope) {bindings : List (String × Value)}
    (code : ∀ binding ∈ bindings, binding.2.Carries p) :
    Matches p strict (bindAll frame bindings) (bindAll frame bindings) fun _ => True := by
  induction bindings with
  | nil => exact matches_pure trivial
  | cons binding rest ih =>
    obtain ⟨codeFirst, codeRest⟩ := List.forall_mem_cons.1 code
    refine (matches_declare frame binding.1 .dynamic).bind fun slot _ => ?_
    exact (matches_write slot codeFirst).bind fun _ _ => ih codeRest

variable {policy policy' : Policy} (limits : policy'.outputLimit = policy.outputLimit)

include limits

theorem serve_matches {arguments : List Node} (code : ∀ n ∈ arguments, n.Throughout p) (scope : Scope)
    (host : Host) :
    Matches p strict (serve policy rec arguments scope host) (serve policy' rec' arguments scope host)
      fun _ => True := by
  induction host with
  | returns => exact matches_pure trivial
  | fails message => exact matches_throw nofun
  | writes text next ih => exact (matches_emit limits text).bind fun wrote _ => ih wrote
  | evaluates argument next ih =>
    rw [serve, serve]
    cases given : arguments[argument]? with
    | none => exact ih none
    | some node =>
      have codeNode := code node (List.mem_of_getElem? given)
      exact (below node scope codeNode).bind fun v _ => matches_get.bind fun m _ => ih _
  | looks next ih => exact matches_get.bind fun m _ => ih _

theorem callNative_matches (native : Native) {arguments : List Node} (code : ∀ n ∈ arguments, n.Throughout p)
    (scope : Scope) :
    Matches p strict (callNative policy rec native arguments scope)
      (callNative policy' rec' native arguments scope) fun _ => True := by
  cases native with
  | print ending =>
    refine (values_matches below code scope).bind fun found _ => ?_
    refine (matches_emit limits _).bind fun wrote _ => ?_
    cases wrote with
    | true => exact matches_pure trivial
    | false => exact matches_throw nofun
  | host act => exact serve_matches below limits code scope _

theorem invoke_matches {f : FunctionValue} (codeBody : f.Carries p) {arguments : List Node}
    (code : ∀ n ∈ arguments, n.Throughout p) (scope : Scope) :
    Matches p strict (invoke policy rec f arguments scope) (invoke policy' rec' f arguments scope)
      fun _ => True := by
  refine (matches_note _).bind fun _ _ => ?_
  have enter : Matches p strict
      (do
        let found ← values rec scope arguments
        let frame ← Eval.nested f.closure
        bindAll frame (f.params.zip found)
        let _ ← rec f.body frame)
      (do
        let found ← values rec' scope arguments
        let frame ← Eval.nested f.closure
        bindAll frame (f.params.zip found)
        let _ ← rec' f.body frame) fun _ => True := by
    refine (values_matches below code scope).bind fun found kept => ?_
    refine (matches_nested f.closure).bind fun frame _ => ?_
    refine (bindAll_matches frame fun binding member => ?_).bind fun _ _ => ?_
    · exact (kept _ (List.of_mem_zip member).2).2
    · -- The body is no part of the node that is evaluated, but it comes out of the store.
      exact (below f.body frame codeBody).bind fun _ _ => matches_pure trivial
  cases f.native with
  | some native => exact callNative_matches below limits native code scope
  | none =>
    dsimp only
    split
    · exact (matches_fail (Q := fun _ => True) _).bind fun _ _ => enter
    · exact enter

theorem call_matches {callee : Node} (codeCallee : callee.Throughout p) {arguments : List Node}
    (code : ∀ n ∈ arguments, n.Throughout p) (scope : Scope) :
    Matches p strict (call policy rec callee arguments scope) (call policy' rec' callee arguments scope)
      fun v => v.Carries p := by
  refine (value_matches below codeCallee scope).bind fun v kept => ?_
  cases v with
  | function f =>
    exact (invoke_matches below limits kept.2 code scope).bind fun _ _ => matches_pure trivial
  | _ => exact matches_fail _

omit limits

/-! ### Classes and objects -/

theorem instantiate_matches {c : ClassValue} (code : c.Carries p) :
    Matches p strict (instantiate rec c) (instantiate rec' c) fun o => o.blueprint.Carries p := by
  refine (matches_nested c.members).bind fun scope _ => ?_
  refine (each_matches fun n member => ?_).bind fun _ _ => matches_get.bind fun m _ => ?_
  · exact (below n scope (code.fields n member)).mono fun _ _ => trivial
  · exact (matches_note _).bind fun _ _ => matches_pure code

theorem instantiation_matches {blueprint : Node} (code : blueprint.Throughout p) (arguments : List Node)
    (scope : Scope) :
    Matches p strict (instantiation rec blueprint arguments scope)
      (instantiation rec' blueprint arguments scope) fun v => v.Carries p := by
  refine (value_matches below code scope).bind fun v kept => ?_
  cases v with
  | blueprint c =>
    have make : Matches p strict (do return Value.object (← instantiate rec c))
        (do return Value.object (← instantiate rec' c)) fun v => v.Carries p :=
      (instantiate_matches below kept.2).bind fun _ carries => matches_pure carries
    dsimp only
    split
    · exact (matches_fail (Q := fun _ => True) _).bind fun _ _ => make
    · exact make
  | _ => exact matches_fail _

omit below in
theorem newFunction_matches (modifiers : Modifiers) (name : String) (params : List String) {body : Node}
    (code : body.Throughout p) (closure : Scope) :
    Matches p strict (newFunction modifiers name params body closure)
      (newFunction modifiers name params body closure) fun f => f.Carries p :=
  matches_stamp.bind fun _ _ => matches_pure code

theorem member_matches {node : Node} (code : node.Throughout p)
    (declares : Parser.declared? node ≠ none) (scope : Scope) :
    Matches p strict (member rec node scope) (member rec' node scope) fun _ => True := by
  cases node with
  | variableDeclaration | functionDeclaration | classDeclaration =>
    exact (below _ scope code).mono fun _ _ => trivial
  | _ => exact absurd rfl declares

theorem methods_matches (className : String) (members : Scope) {collected : List FunctionValue}
    (codeCollected : ∀ f ∈ collected, f.Carries p) {nodes : List Node}
    (code : ∀ n ∈ nodes, n.Throughout p) (sorted : ∀ n ∈ nodes, Parser.declared? n = some .function) :
    Matches p strict (methods rec className members collected nodes)
      (methods rec' className members collected nodes) fun fs => ∀ f ∈ fs, f.Carries p := by
  induction nodes generalizing collected with
  | nil => exact matches_pure codeCollected
  | cons node rest ih =>
    obtain ⟨codeFirst, codeRest⟩ := List.forall_mem_cons.1 code
    obtain ⟨sortedFirst, sortedRest⟩ := List.forall_mem_cons.1 sorted
    cases node with
    | functionDeclaration span modifiers name params body =>
      simp only [methods]
      split
      · exact (below _ members codeFirst).bind fun _ _ =>
          ih codeCollected codeRest sortedRest
      · split
        · exact matches_throw nofun
        · have codeBody : body.Throughout p := codeFirst.part (by simp [Node.parts])
          refine (newFunction_matches modifiers name params codeBody members).bind fun f carries => ?_
          refine ih (fun g member => ?_) codeRest sortedRest
          rcases List.mem_append.1 member with old | new
          · exact codeCollected g old
          · rw [List.mem_singleton.1 new]
            exact carries
    -- Anything else would get stuck, but is not among the methods of a class.
    | _ => cases sortedFirst

theorem newClass_matches (modifiers : Modifiers) (name : String) {fields functions classes : List Node}
    (codeFields : ∀ n ∈ fields, n.Throughout p) (codeFunctions : ∀ n ∈ functions, n.Throughout p)
    (codeClasses : ∀ n ∈ classes, n.Throughout p)
    (areFields : ∀ n ∈ fields, Parser.declared? n = some .variable)
    (areFunctions : ∀ n ∈ functions, Parser.declared? n = some .function)
    (areClasses : ∀ n ∈ classes, Parser.declared? n = some .blueprint) (scope : Scope) :
    Matches p strict (newClass rec modifiers name fields functions classes scope)
      (newClass rec' modifiers name fields functions classes scope) fun c => c.Carries p := by
  refine (matches_nested scope).bind fun members _ => ?_
  have all {nodes : List Node} {sort : Parser.Declares} (code : ∀ n ∈ nodes, n.Throughout p)
      (sorted : ∀ n ∈ nodes, Parser.declared? n = some sort) :
      Matches p strict (each (member rec) members nodes) (each (member rec') members nodes)
        fun _ => True :=
    each_matches fun n here => member_matches below (code n here) (by simp [sorted n here]) members
  refine (all codeClasses areClasses).bind fun _ _ => ?_
  refine (methods_matches below name members (by simp) codeFunctions areFunctions).bind
    fun prototype carries => ?_
  have statics : ∀ n ∈ fields.filter isStatic, n ∈ fields := fun n here => (List.mem_filter.1 here).1
  refine (all (fun n here => codeFields n (statics n here)) fun n here =>
    areFields n (statics n here)).bind fun _ _ => ?_
  refine matches_get.bind fun m _ => (matches_note _).bind fun _ _ => ?_
  -- The other fields are evaluated with each object, so the class has to keep their code.
  exact matches_pure ⟨carries, fun n here => codeFields n (List.mem_filter.1 here).1⟩

/-! ### Declarations and control flow -/

omit below in
theorem functionDeclaration_matches (modifiers : Modifiers) (name : String) (params : List String)
    {body : Node} (code : body.Throughout p) (scope : Scope) :
    Matches p strict (functionDeclaration modifiers name params body scope)
      (functionDeclaration modifiers name params body scope) fun v => v.Carries p := by
  refine (matches_declare scope name .function).bind fun slot _ => ?_
  refine (newFunction_matches modifiers name params code scope).bind fun f carries => ?_
  exact (matches_write slot (v := .function f) carries).bind fun _ _ => matches_pure carries

theorem block_matches {body : Node} (code : body.Throughout p) (scope : Scope) :
    Matches p strict (block rec body scope) (block rec' body scope) fun _ => True := by
  refine (matches_nested scope).bind fun inner _ => ?_
  exact (below body inner code).bind fun _ _ => matches_pure trivial

theorem whileLoop_matches (budget : Nat) {test body : Node} (codeTest : test.Throughout p)
    (codeBody : body.Throughout p) (scope : Scope) :
    Matches p strict (whileLoop rec budget test body scope) (whileLoop rec' budget test body scope)
      fun v => v.Carries p := by
  refine (matches_rounds ?_ budget).bind fun _ _ => matches_pure trivial
  refine (condition_matches below codeTest scope).bind fun holds _ => ?_
  cases holds with
  | true => exact (block_matches below codeBody scope).bind fun _ _ => matches_pure trivial
  | false => exact matches_pure trivial

theorem doWhileLoop_matches (budget : Nat) {test body : Node} (codeTest : test.Throughout p)
    (codeBody : body.Throughout p) (scope : Scope) :
    Matches p strict (doWhileLoop rec budget test body scope) (doWhileLoop rec' budget test body scope)
      fun v => v.Carries p := by
  refine (matches_rounds ?_ budget).bind fun _ _ => matches_pure trivial
  exact (block_matches below codeBody scope).bind fun _ _ => condition_matches below codeTest scope

theorem forLoop_matches (budget : Nat) {declaration test round body : Node}
    (codeFirst : declaration.Throughout p) (codeTest : test.Throughout p)
    (codeRound : round.Throughout p) (codeBody : body.Throughout p) (scope : Scope) :
    Matches p strict (forLoop rec budget declaration test round body scope)
      (forLoop rec' budget declaration test round body scope) fun v => v.Carries p := by
  refine (matches_nested scope).bind fun loop _ => (below declaration loop codeFirst).bind fun _ _ => ?_
  refine (matches_rounds ?_ budget).bind fun _ _ => matches_pure trivial
  refine (condition_matches below codeTest loop).bind fun holds _ => ?_
  cases holds with
  | true =>
    refine (block_matches below codeBody loop).bind fun _ _ => ?_
    exact (below round loop codeRound).bind fun _ _ => matches_pure trivial
  | false => exact matches_pure trivial

theorem branch_matches {test body alternative : Node} (codeTest : test.Throughout p)
    (codeBody : body.Throughout p) (codeElse : alternative.Throughout p) (scope : Scope) :
    Matches p strict (branch rec test body alternative scope) (branch rec' test body alternative scope)
      fun v => v.Carries p := by
  refine (matches_nested scope).bind fun inner _ => ?_
  refine (condition_matches below codeTest inner).bind fun holds _ => ?_
  cases holds with
  | true => exact (below body inner codeBody).mono fun _ yields => yields.1
  | false => exact (below alternative inner codeElse).mono fun _ yields => yields.1

theorem variableDeclaration_matches (name : String) (type : DeclaredType) {initial : Node}
    (code : initial.Throughout p) (scope : Scope) :
    Matches p strict (variableDeclaration rec name type initial scope)
      (variableDeclaration rec' name type initial scope) fun v => v.Carries p := by
  refine (matches_declare scope name type).bind fun _ _ => ?_
  exact (below initial scope code).mono fun _ yields => yields.1

/-! ## All nodes -/

variable (filled : ∀ n, p n → n.isFilled)

include filled

theorem classDeclaration_matches {span : Span} {modifiers : Modifiers} {name : String}
    {fields functions classes : List Node}
    (code : (Node.classDeclaration span modifiers name fields functions classes).Throughout p)
    (scope : Scope) :
    Matches p strict (classDeclaration rec modifiers name fields functions classes scope)
      (classDeclaration rec' modifiers name fields functions classes scope) fun v => v.Carries p := by
  have sorted := filled _ code.own
  simp only [Node.isFilled, Bool.and_eq_true, List.all_eq_true, decide_eq_true_eq] at sorted
  obtain ⟨⟨areFields, areFunctions⟩, areClasses⟩ := sorted
  refine (matches_declare scope name .blueprint).bind fun slot _ => ?_
  refine (newClass_matches below modifiers name (fun n here => code.part ?_) (fun n here => code.part ?_)
    (fun n here => code.part ?_) areFields areFunctions areClasses scope).bind fun c carries => ?_
  · simp [Node.parts, here]
  · simp [Node.parts, here]
  · simp [Node.parts, here]
  · exact (matches_write slot (v := .blueprint c) carries).bind fun _ _ => matches_pure carries

include limits

/-- If the nodes below a node are evaluated alike, so is the node, provided that this holds of binary
    operators. -/
theorem rule_matches
    (binaries : ∀ {span op left right} scope, (Node.binary span op left right).Throughout p →
      Matches p strict (binary policy rec op left right scope) (binary policy' rec' op left right scope)
        fun v => v.Carries p)
    (budget : Nat) {node : Node} (code : node.Throughout p) (scope : Scope) :
    Matches p strict (rule policy rec budget node scope) (rule policy' rec' budget node scope) fun v =>
      v.Carries p ∧ (node.isName → ∃ slot, v = .slot slot) := by
  -- Nodes of all kinds but one are no names, and may yield anything.
  have nameless {x x' : Eval Value} (is : node.isName = false)
      (agrees : Matches p strict x x' fun v => v.Carries p) : Matches p strict x x' fun v =>
        v.Carries p ∧ (node.isName → ∃ slot, v = .slot slot) :=
    agrees.mono fun v carries => ⟨carries, fun named => by simp [is] at named⟩
  have part {n : Node} (here : n ∈ node.parts) : n.Throughout p := code.part here
  have own := filled node code.own
  cases node with
  | absent | null | integer | double | boolean => exact nameless rfl (matches_pure trivial)
  | foreign => exact nameless rfl (matches_fail _)
  | tree span children =>
    exact nameless rfl (statements_matches below (fun n here => part here) scope trivial)
  | binary span op left right => exact nameless rfl (binaries scope code)
  | identifier span parent name =>
    refine (identifier_matches below (part (by simp [Node.parts])) name scope).mono ?_
    exact fun v yields => ⟨yields.1, fun _ => yields.2⟩
  | usage span target =>
    exact nameless rfl (usage_matches below (part (by simp [Node.parts])) own scope)
  | assignment span op target value =>
    exact nameless rfl (assignment_matches below op (part (by simp [Node.parts])) own
      (part (by simp [Node.parts])) scope)
  | call span callee arguments =>
    exact nameless rfl (call_matches below limits (part (by simp [Node.parts]))
      (fun n here => part (by simp [Node.parts, here])) scope)
  | instantiation span blueprint arguments =>
    exact nameless rfl (instantiation_matches below (part (by simp [Node.parts])) arguments scope)
  | variableDeclaration span modifiers name type initial =>
    exact nameless rfl (variableDeclaration_matches below name type (part (by simp [Node.parts])) scope)
  | whileLoop span test body =>
    exact nameless rfl (whileLoop_matches below budget (part (by simp [Node.parts]))
      (part (by simp [Node.parts])) scope)
  | doWhileLoop span test body =>
    exact nameless rfl (doWhileLoop_matches below budget (part (by simp [Node.parts]))
      (part (by simp [Node.parts])) scope)
  | forLoop span declaration test round body =>
    exact nameless rfl (forLoop_matches below budget (part (by simp [Node.parts]))
      (part (by simp [Node.parts])) (part (by simp [Node.parts])) (part (by simp [Node.parts])) scope)
  | branch span test body alternative =>
    exact nameless rfl (branch_matches below (part (by simp [Node.parts])) (part (by simp [Node.parts]))
      (part (by simp [Node.parts])) scope)
  | functionDeclaration span modifiers name params body =>
    exact nameless rfl (functionDeclaration_matches modifiers name params (part (by simp [Node.parts]))
      scope)
  | classDeclaration span modifiers name fields functions classes =>
    exact nameless rfl (classDeclaration_matches below filled code scope)

end Rules

end Evaluator

end ClassScript
