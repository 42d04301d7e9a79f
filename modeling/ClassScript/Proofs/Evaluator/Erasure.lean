import ClassScript.Proofs.Store.Erasure

/-! # Evaluation does not look at spans

Evaluating a tree without its spans in a state without spans goes exactly as evaluating the tree in the
state, but for the spans in what it yields and leaves (`eval_erases`).  `Erases f x x'` says so of two
evaluations: whatever state they start from, `x'` without the spans does what `x` does, and yields `f a`
where `x` yields `a`.
-/

namespace ClassScript

namespace Eval

variable {α β γ δ : Type}

def erased (f : α → β) : EStateM.Result Stop Machine α → EStateM.Result Stop Machine β
  | .ok a m => .ok (f a) m.erase
  | .error stop m => .error stop.erase m.erase

/-- The second evaluation is the first one without spans. -/
def Erases (f : α → β) (x : Eval α) (x' : Eval β) : Prop := ∀ m, x' m.erase = erased f (x m)

/-! ## Steps -/

theorem erases_pure {f : α → β} {a : α} {b : β} (same : b = f a) : Erases f (pure a) (pure b) := by
  intro m
  rw [same]
  rfl

theorem Erases.bind {f : α → β} {g : γ → δ} {x : Eval α} {x' : Eval β} {k : α → Eval γ}
    {k' : β → Eval δ} (first : Erases f x x') (rest : ∀ a, Erases g (k a) (k' (f a))) :
    Erases g (x >>= k) (x' >>= k') := by
  intro m
  rw [bind_apply, bind_apply, first m]
  cases x m with
  | ok a m' => exact rest a m'
  | error stop m' => rfl

theorem erases_throw {f : α → β} {stop stop' : Stop} (same : stop' = stop.erase) :
    Erases f (throw stop) (throw stop') := by
  intro m
  rw [same]
  rfl

theorem erases_fail {f : α → β} (fault : Fault) : Erases f (fail fault) (fail fault) :=
  erases_throw rfl

theorem erases_ofExcept {f : α → β} {r : Except Fault α} {r' : Except Fault β} (same : r' = r.map f) :
    Erases f (ofExcept r) (ofExcept r') := by
  rw [same]
  cases r with
  | ok a => exact erases_pure rfl
  | error fault => exact erases_fail fault

theorem erases_query {f : α → β} {q : Store → Except Fault α} {q' : Store → Except Fault β}
    (same : ∀ s : Store, q' s.erase = (q s).map f) : Erases f (query q) (query q') := fun m =>
  erases_ofExcept (same m.store) m

theorem Erases.blaming {f : α → β} {x : Eval α} {x' : Eval β} (inner : Erases f x x') (span : Span) :
    Erases f (blaming span x) (Eval.blaming .none x') := by
  intro m
  simp only [Eval.blaming, inner m]
  cases x m with
  | ok a m' => rfl
  | error stop m' => simp only [erased, Stop.erase_blame, Stop.blame_erase]

theorem erases_plain (v : Value) : Erases Value.erase (plain v) (plain v.erase) :=
  erases_query fun s => s.plain_erase v

theorem erases_write (slot : Slot) (v : Value) : Erases id (write slot v) (write slot.erase v.erase) :=
  fun m => congrArg (EStateM.Result.ok ()) (congrArg (fun s => { m with store := s }) (m.store.write_erase slot v))

theorem erases_declare (scope : Scope) (name : String) (type : DeclaredType) :
    Erases Slot.erase (declare scope name type) (declare scope name type) := by
  intro m
  have same : (m.erase.store.declared scope).has name = (m.store.declared scope).has name := by
    simp [Machine.erase]
  simp only [declare, same]
  split
  · rfl
  · simp only [erased, Slot.erase, Machine.mapStore, Machine.erase]
    rw [m.store.modifyTable_erase scope.table fun t => t.add_erase name type]

theorem erases_nested (scope : Scope) : Erases id (nested scope) (nested scope) := by
  intro m
  simp [nested, erased, Machine.mapStore, Machine.erase]

theorem erases_stamp : Erases id stamp stamp := fun _ => rfl

theorem erases_note (event : Event) : Erases id (note event) (note event) := fun _ => rfl

theorem erases_emit (policy : Policy) (text : String) :
    Erases id (emit policy text) (emit policy text) := by
  intro m
  have same : fits policy m.erase text = fits policy m text := rfl
  simp only [emit, same]
  split <;> rfl

theorem erases_get : Erases Machine.erase get get := fun _ => rfl

theorem erases_rounds {round round' : Eval Bool} (one : Erases id round round') (budget : Nat) :
    Erases id (rounds budget round) (rounds budget round') := by
  induction budget with
  | zero => exact erases_throw rfl
  | succ budget ih =>
    refine one.bind fun more => ?_
    cases more with
    | true => exact ih
    | false => exact erases_pure rfl

end Eval

/-! ## Rules -/

namespace Evaluator

open Eval

def Recursion.Erases (rec rec' : Recursion) : Prop :=
  ∀ node scope, Eval.Erases Value.erase (rec node scope) (rec' node.erase scope)

section Rules

variable {rec rec' : Recursion} (below : Recursion.Erases rec rec')

include below

theorem value_erases (node : Node) (scope : Scope) :
    Erases Value.erase (value rec node scope) (value rec' node.erase scope) := by
  refine (below node scope).bind fun v => ?_
  rw [Node.span_erase]
  exact (erases_plain v).blaming node.span

theorem values_erases (scope : Scope) (nodes : List Node) :
    Erases (List.map Value.erase) (values rec scope nodes) (values rec' scope (nodes.map Node.erase)) := by
  induction nodes with
  | nil => exact erases_pure rfl
  | cons node rest ih =>
    exact (value_erases below node scope).bind fun _ =>
      ih.bind fun _ => erases_pure rfl

theorem each_erases (scope : Scope) (nodes : List Node) :
    Erases id (each rec scope nodes) (each rec' scope (nodes.map Node.erase)) := by
  induction nodes with
  | nil => exact erases_pure rfl
  | cons node rest ih =>
    exact (below node scope).bind fun _ => ih

omit below in
theorem truth_erase (v : Value) : truth v.erase = (truth v).map id := by
  cases v <;> rfl

theorem condition_erases (node : Node) (scope : Scope) :
    Erases id (condition rec node scope) (condition rec' node.erase scope) := by
  simp only [condition, Node.isAbsent_erase, Node.span_erase]
  split
  · exact erases_pure rfl
  · refine (value_erases below node scope).bind fun v => ?_
    exact (erases_ofExcept (truth_erase v)).blaming node.span

theorem target_erases (node : Node) (scope : Scope) :
    Erases Slot.erase (target rec node scope) (target rec' node.erase scope) := by
  cases node with
  | identifier span parent name =>
    refine (below (.identifier span parent name) scope).bind fun v => ?_
    cases v with
    | slot slot => exact erases_pure rfl
    | _ => exact erases_throw rfl
  | _ => exact erases_throw rfl

theorem statements_erases (scope : Scope) (result : Value) (nodes : List Node) :
    Erases Value.erase (statements rec scope result nodes)
      (statements rec' scope result.erase (nodes.map Node.erase)) := by
  induction nodes generalizing result with
  | nil => exact erases_pure rfl
  | cons node rest ih =>
    exact (below node scope).bind fun v => ih v

theorem binary_erases (policy : Policy) (op : BinaryOp) (left right : Node) (scope : Scope) :
    Erases Value.erase (binary policy rec op left right scope)
      (binary policy rec' op left.erase right.erase scope) := by
  refine (value_erases below left scope).bind fun l => ?_
  have both : Erases Value.erase
      (do let r ← value rec right scope; Eval.ofExcept (Operation.apply op l r))
      (do let r ← value rec' right.erase scope; Eval.ofExcept (Operation.apply op l.erase r)) :=
    (value_erases below right scope).bind fun r => erases_ofExcept (Operation.apply_erase op l r)
  dsimp only
  split
  · cases l with
    | boolean b =>
      by_cases alone : decides op b
      · simp only [Value.erase, alone, if_true]
        exact erases_pure rfl
      · simp only [Value.erase, alone]
        exact both
    | _ => exact (erases_fail (f := id) _).bind fun _ => both
  · exact both

theorem identifier_erases (parent : Node) (name : String) (scope : Scope) :
    Erases Value.erase (identifier rec parent name scope) (identifier rec' parent.erase name scope) := by
  simp only [identifier, Node.isAbsent_erase]
  split
  · exact (erases_query fun s => s.lookup_erase scope name).bind fun _ => erases_pure rfl
  · refine (value_erases below parent scope).bind fun v => ?_
    cases v with
    | blueprint c =>
      exact (erases_query fun s => s.classMember_erase c name).bind fun _ => erases_pure rfl
    | object o =>
      exact (erases_query fun s => s.objectMember_erase o name).bind fun _ => erases_pure rfl
    | _ => exact erases_fail _

theorem usage_erases (node : Node) (scope : Scope) :
    Erases Value.erase (usage rec node scope) (usage rec' node.erase scope) :=
  (target_erases below node scope).bind fun slot => erases_query fun s => s.read_erase slot

theorem assignment_erases (op : AssignOp) (variableNode operandNode : Node) (scope : Scope) :
    Erases Value.erase (assignment rec op variableNode operandNode scope)
      (assignment rec' op variableNode.erase operandNode.erase scope) := by
  refine (target_erases below variableNode scope).bind fun slot => ?_
  have store (v : Value) : Erases Value.erase (do Eval.write slot v; return v)
      (do Eval.write slot.erase v.erase; return v.erase) :=
    (erases_write slot v).bind fun _ => erases_pure rfl
  simp only [Node.isAbsent_erase]
  cases op.arithmetic? with
  | none =>
    split
    · exact store (.integer 1)
    · exact (value_erases below operandNode scope).bind store
  | some arithmetic =>
    have combine (operand : Value) : Erases Value.erase
        (do
          let result ← Eval.ofExcept (Operation.apply arithmetic (← Eval.query (·.read slot)) operand)
          Eval.write slot result
          return result)
        (do
          let current ← Eval.query (·.read slot.erase)
          let result ← Eval.ofExcept (Operation.apply arithmetic current operand.erase)
          Eval.write slot.erase result
          return result) := by
      refine (erases_query fun s => s.read_erase slot).bind fun current => ?_
      exact (erases_ofExcept (Operation.apply_erase arithmetic current operand)).bind store
    split
    · exact combine (.integer 1)
    · exact (value_erases below operandNode scope).bind combine

/-! ### Calls -/

omit below in
theorem bindAll_erases (frame : Scope) (bindings : List (String × Value)) :
    Erases id (bindAll frame bindings)
      (bindAll frame (bindings.map fun binding => (binding.1, binding.2.erase))) := by
  induction bindings with
  | nil => exact erases_pure rfl
  | cons binding rest ih =>
    exact (erases_declare frame binding.1 .dynamic).bind fun slot =>
      (erases_write slot binding.2).bind fun _ => ih

theorem serve_erases (policy : Policy) (arguments : List Node) (scope : Scope) (host : Host) :
    Erases id (serve policy rec arguments scope host)
      (serve policy rec' (arguments.map Node.erase) scope host) := by
  induction host with
  | returns => exact erases_pure rfl
  | fails message => exact erases_throw rfl
  | writes text next ih => exact (erases_emit policy text).bind ih
  | evaluates argument next ih =>
    rw [serve, serve, List.getElem?_map]
    cases arguments[argument]? with
    | none => exact ih none
    | some node =>
      refine (below node scope).bind fun v => erases_get.bind fun m => ?_
      have same : m.erase.store.text v.erase = m.store.text v := m.store.text_erase v
      simp only [same, Value.kind_erase]
      exact ih _
  | looks next ih =>
    refine erases_get.bind fun m => ?_
    have same : m.erase.store.view scope = m.store.view scope := m.store.view_erase scope
    simp only [same]
    exact ih _

theorem callNative_erases (policy : Policy) (native : Native) (arguments : List Node) (scope : Scope) :
    Erases id (callNative policy rec native arguments scope)
      (callNative policy rec' native (arguments.map Node.erase) scope) := by
  cases native with
  | print ending =>
    refine (values_erases below scope arguments).bind fun found => ?_
    -- What is printed of a value has no spans in it.
    have same : (found.map Value.erase).map Value.text = found.map Value.text := by simp
    rw [same]
    refine (erases_emit policy _).bind fun wrote => ?_
    cases wrote with
    | true => exact erases_pure rfl
    | false => exact erases_throw rfl
  | host act =>
    simp only [callNative, List.length_map]
    exact serve_erases below policy arguments scope _

theorem invoke_erases (policy : Policy) (f : FunctionValue) (arguments : List Node) (scope : Scope) :
    Erases id (invoke policy rec f arguments scope)
      (invoke policy rec' f.erase (arguments.map Node.erase) scope) := by
  simp only [invoke, FunctionValue.name_erase, FunctionValue.native_erase, FunctionValue.params_erase,
    FunctionValue.body_erase, FunctionValue.closure_erase, List.length_map]
  refine (erases_note _).bind fun _ => ?_
  have enter : Erases id
      (do
        let found ← values rec scope arguments
        let frame ← Eval.nested f.closure
        bindAll frame (f.params.zip found)
        let _ ← rec f.body frame)
      (do
        let found ← values rec' scope (arguments.map Node.erase)
        let frame ← Eval.nested f.closure
        bindAll frame (f.params.zip found)
        let _ ← rec' f.body.erase frame) := by
    refine (values_erases below scope arguments).bind fun found => ?_
    refine (erases_nested f.closure).bind fun frame => ?_
    -- Only the values of the bindings have spans.
    rw [List.zip_map_right]
    exact (bindAll_erases frame _).bind fun _ => (below f.body frame).bind fun _ => erases_pure rfl
  cases f.native with
  | some native => exact callNative_erases below policy native arguments scope
  | none =>
    dsimp only
    split
    · exact (erases_fail (f := id) _).bind fun _ => enter
    · exact enter

theorem call_erases (policy : Policy) (callee : Node) (arguments : List Node) (scope : Scope) :
    Erases Value.erase (call policy rec callee arguments scope)
      (call policy rec' callee.erase (arguments.map Node.erase) scope) := by
  refine (value_erases below callee scope).bind fun v => ?_
  cases v with
  | function f =>
    exact (invoke_erases below policy f arguments scope).bind fun _ => erases_pure rfl
  | _ => exact erases_fail _

/-! ### Classes and objects -/

theorem instantiate_erases (c : ClassValue) :
    Erases ObjectValue.erase (instantiate rec c) (instantiate rec' c.erase) := by
  refine (erases_nested c.members).bind fun scope => ?_
  refine (each_erases below scope c.fields).bind fun _ => erases_get.bind fun m => ?_
  have same : (m.erase.store.declared scope).length = (m.store.declared scope).length := by
    simp [Machine.erase]
  simp only [id_eq, same, ClassValue.name_erase]
  exact (erases_note _).bind fun _ => erases_pure rfl

theorem instantiation_erases (blueprint : Node) (arguments : List Node) (scope : Scope) :
    Erases Value.erase (instantiation rec blueprint arguments scope)
      (instantiation rec' blueprint.erase (arguments.map Node.erase) scope) := by
  refine (value_erases below blueprint scope).bind fun v => ?_
  cases v with
  | blueprint c =>
    have make : Erases Value.erase (do return .object (← instantiate rec c))
        (do return .object (← instantiate rec' c.erase)) :=
      (instantiate_erases below c).bind fun _ => erases_pure rfl
    simp only [Value.erase, List.isEmpty_map, List.length_map, ClassValue.name_erase]
    split
    · exact (erases_fail (f := id) _).bind fun _ => make
    · exact make
  | _ => exact erases_fail _

omit below in
theorem newFunction_erases (modifiers : Modifiers) (name : String) (params : List String) (body : Node)
    (closure : Scope) :
    Erases FunctionValue.erase (newFunction modifiers name params body closure)
      (newFunction modifiers name params body.erase closure) :=
  erases_stamp.bind fun _ => erases_pure rfl

theorem member_erases : Recursion.Erases (member rec) (member rec') := by
  intro node scope
  cases node with
  | variableDeclaration | functionDeclaration | classDeclaration => exact below _ scope
  | _ => exact erases_throw rfl

omit below in
theorem isStatic_erase (node : Node) : isStatic node.erase = isStatic node := by
  cases node <;> rfl

theorem methods_erases (className : String) (members : Scope) (collected : List FunctionValue)
    (nodes : List Node) :
    Erases (List.map FunctionValue.erase) (methods rec className members collected nodes)
      (methods rec' className members (collected.map FunctionValue.erase) (nodes.map Node.erase)) := by
  induction nodes generalizing collected with
  | nil => exact erases_pure rfl
  | cons node rest ih =>
    have pass : Erases (List.map FunctionValue.erase)
        (do let _ ← rec node members; methods rec className members collected rest)
        (do
          let _ ← rec' node.erase members
          methods rec' className members (collected.map FunctionValue.erase) (rest.map Node.erase)) :=
      (below node members).bind fun _ => ih collected
    cases node with
    | functionDeclaration span modifiers name params body =>
      have taken : (collected.map FunctionValue.erase).any (·.name = name)
          = collected.any (·.name = name) := by
        rw [List.any_map]
        rfl
      simp only [List.map_cons, methods, Node.erase, Node.mapSpans, taken]
      split
      · exact pass
      · split
        · exact erases_throw rfl
        · refine (newFunction_erases modifiers name params body members).bind fun f => ?_
          have collects := ih (collected ++ [f])
          rw [List.map_append] at collects
          exact collects
    | _ => exact erases_throw rfl

theorem newClass_erases (modifiers : Modifiers) (name : String) (fields functions classes : List Node)
    (scope : Scope) :
    Erases ClassValue.erase (newClass rec modifiers name fields functions classes scope)
      (newClass rec' modifiers name (fields.map Node.erase) (functions.map Node.erase)
        (classes.map Node.erase) scope) := by
  have statics : (fields.map Node.erase).filter isStatic = (fields.filter isStatic).map Node.erase := by
    rw [List.filter_map, Function.comp_def]
    simp only [isStatic_erase]
  have others : (fields.map Node.erase).filter (!isStatic ·)
      = (fields.filter (!isStatic ·)).map Node.erase := by
    rw [List.filter_map, Function.comp_def]
    simp only [isStatic_erase]
  simp only [newClass, statics, others, List.length_map]
  refine (erases_nested scope).bind fun members => ?_
  refine (each_erases (member_erases below) members classes).bind fun _ => ?_
  refine (methods_erases below name members [] functions).bind fun prototype => ?_
  refine (each_erases (member_erases below) members _).bind fun _ => erases_get.bind fun m => ?_
  have same : (m.erase.store.declared members).length = (m.store.declared members).length := by
    simp [Machine.erase]
  simp only [id_eq, same, List.length_map]
  exact (erases_note _).bind fun _ => erases_pure rfl

/-! ### Declarations and control flow -/

theorem variableDeclaration_erases (name : String) (type : DeclaredType) (initial : Node)
    (scope : Scope) :
    Erases Value.erase (variableDeclaration rec name type initial scope)
      (variableDeclaration rec' name type initial.erase scope) :=
  (erases_declare scope name type).bind fun _ => below initial scope

omit below in
theorem functionDeclaration_erases (modifiers : Modifiers) (name : String) (params : List String)
    (body : Node) (scope : Scope) :
    Erases Value.erase (functionDeclaration modifiers name params body scope)
      (functionDeclaration modifiers name params body.erase scope) := by
  refine (erases_declare scope name .function).bind fun slot => ?_
  refine (newFunction_erases modifiers name params body scope).bind fun f => ?_
  exact (erases_write slot (.function f)).bind fun _ => erases_pure rfl

theorem classDeclaration_erases (modifiers : Modifiers) (name : String)
    (fields functions classes : List Node) (scope : Scope) :
    Erases Value.erase (classDeclaration rec modifiers name fields functions classes scope)
      (classDeclaration rec' modifiers name (fields.map Node.erase) (functions.map Node.erase)
        (classes.map Node.erase) scope) := by
  refine (erases_declare scope name .blueprint).bind fun slot => ?_
  refine (newClass_erases below modifiers name fields functions classes scope).bind fun c => ?_
  exact (erases_write slot (.blueprint c)).bind fun _ => erases_pure rfl

theorem block_erases (body : Node) (scope : Scope) :
    Erases id (block rec body scope) (block rec' body.erase scope) :=
  (erases_nested scope).bind fun inner => (below body inner).bind fun _ => erases_pure rfl

theorem whileLoop_erases (budget : Nat) (test body : Node) (scope : Scope) :
    Erases Value.erase (whileLoop rec budget test body scope)
      (whileLoop rec' budget test.erase body.erase scope) := by
  refine (erases_rounds ?_ budget).bind fun _ => erases_pure rfl
  refine (condition_erases below test scope).bind fun holds => ?_
  cases holds with
  | true => exact (block_erases below body scope).bind fun _ => erases_pure rfl
  | false => exact erases_pure rfl

theorem doWhileLoop_erases (budget : Nat) (test body : Node) (scope : Scope) :
    Erases Value.erase (doWhileLoop rec budget test body scope)
      (doWhileLoop rec' budget test.erase body.erase scope) := by
  refine (erases_rounds ?_ budget).bind fun _ => erases_pure rfl
  exact (block_erases below body scope).bind fun _ => condition_erases below test scope

theorem forLoop_erases (budget : Nat) (declaration test round body : Node) (scope : Scope) :
    Erases Value.erase (forLoop rec budget declaration test round body scope)
      (forLoop rec' budget declaration.erase test.erase round.erase body.erase scope) := by
  refine (erases_nested scope).bind fun loop => (below declaration loop).bind fun _ => ?_
  refine (erases_rounds ?_ budget).bind fun _ => erases_pure rfl
  refine (condition_erases below test loop).bind fun holds => ?_
  cases holds with
  | true =>
    exact (block_erases below body loop).bind fun _ =>
      (below round loop).bind fun _ => erases_pure rfl
  | false => exact erases_pure rfl

theorem branch_erases (test body alternative : Node) (scope : Scope) :
    Erases Value.erase (branch rec test body alternative scope)
      (branch rec' test.erase body.erase alternative.erase scope) := by
  refine (erases_nested scope).bind fun inner => ?_
  refine (condition_erases below test inner).bind fun holds => ?_
  cases holds with
  | true => exact below body inner
  | false => exact below alternative inner

/-! ## All nodes -/

theorem rule_erases (policy : Policy) (budget : Nat) (node : Node) (scope : Scope) :
    Erases Value.erase (rule policy rec budget node scope)
      (rule policy rec' budget node.erase scope) := by
  cases node with
  | absent | null | integer | double | boolean => exact erases_pure rfl
  | foreign => exact erases_fail _
  | tree span children =>
    simp only [Node.erase, Node.mapSpans, Node.mapAllSpans_eq_map]
    exact statements_erases below scope .null children
  | binary span op left right => exact binary_erases below policy op left right scope
  | identifier span parent name => exact identifier_erases below parent name scope
  | usage span target => exact usage_erases below target scope
  | assignment span op target value => exact assignment_erases below op target value scope
  | call span callee arguments =>
    simp only [Node.erase, Node.mapSpans, Node.mapAllSpans_eq_map]
    exact call_erases below policy callee arguments scope
  | instantiation span blueprint arguments =>
    simp only [Node.erase, Node.mapSpans, Node.mapAllSpans_eq_map]
    exact instantiation_erases below blueprint arguments scope
  | variableDeclaration span modifiers name type initial =>
    exact variableDeclaration_erases below name type initial scope
  | whileLoop span test body => exact whileLoop_erases below budget test body scope
  | doWhileLoop span test body => exact doWhileLoop_erases below budget test body scope
  | forLoop span declaration test round body =>
    exact forLoop_erases below budget declaration test round body scope
  | branch span test body alternative => exact branch_erases below test body alternative scope
  | functionDeclaration span modifiers name params body =>
    exact functionDeclaration_erases modifiers name params body scope
  | classDeclaration span modifiers name fields functions classes =>
    simp only [Node.erase, Node.mapSpans, Node.mapAllSpans_eq_map]
    exact classDeclaration_erases below modifiers name fields functions classes scope

end Rules

/-- Evaluation goes the same way with spans and without. -/
theorem eval_erases (policy : Policy) (budget : Nat) :
    Recursion.Erases (eval policy budget) (eval policy budget) := by
  induction budget with
  | zero => exact fun _ _ => erases_throw rfl
  | succ budget ih =>
    intro node scope
    rw [eval, eval, Node.span_erase]
    exact (rule_erases ih policy budget node scope).blaming node.span

end Evaluator

end ClassScript
