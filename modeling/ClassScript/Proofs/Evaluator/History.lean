import ClassScript.Proofs.Store.History

/-! # Evaluation makes history

Whatever is evaluated, the machine that is left has a history that explains it, and one that goes on from the history
before (`Evaluator.eval_tells`).  `Tells own c x Q` says so of one evaluation: from the machine of the chronicle `c`
it leads to the machine of a chronicle since then, and what it yields has the property `Q`.  The scopes of `own` are
those of the machine in which methods may be made, which is in the member scope of a class while the class is made.
-/

namespace ClassScript

open Chronicle

variable {part : Node → Prop}

namespace Eval

variable {α β : Type} {own own' : Scope → Prop} {c : Chronicle part}
  {Q : α → Chronicle part → Prop} {R : β → Chronicle part → Prop}

/-- The evaluation leads to a machine with a longer history, and yields what has a property. -/
def Tells (own : Scope → Prop) (c : Chronicle part) (x : Eval α) (Q : α → Chronicle part → Prop) : Prop :=
  match x c.machine with
  | .ok a m => ∃ c' : Chronicle part, c'.machine = m ∧ Since own c c' ∧ Q a c'
  | .error _ m => ∃ c' : Chronicle part, c'.machine = m ∧ Since own c c'

/-! ## Steps -/

theorem tells_pure {a : α} (holds : Q a c) : Tells own c (pure a) Q := ⟨c, rfl, .refl c, holds⟩

theorem tells_throw (stop : Stop) : Tells own c (throw stop) Q := ⟨c, rfl, .refl c⟩

theorem tells_fail (fault : Fault) : Tells own c (fail fault) Q := ⟨c, rfl, .refl c⟩

/-- An evaluation that yields something, and the rest of it. -/
theorem Tells.after {x : Eval α} {k : α → Eval β} {a : α} {c' : Chronicle part}
    (yields : x c.machine = .ok a c'.machine) (since : Since own c c') (rest : Tells own' c' (k a) R)
    (may : ∀ scope ∈ c.machine.store.scopes, own' scope → own scope) : Tells own c (x >>= k) R := by
  have whole {c'' : Chronicle part} (later : Since own' c' c'') : Since own c c'' := by
    refine ((since.mono fun _ _ => Or.inl).trans (later.mono fun _ _ => Or.inr)).mono ?_
    rintro scope here (mine | theirs)
    · exact mine
    · exact may scope here theirs
  rw [Tells] at rest
  rw [Tells, bind_apply, yields]
  dsimp only
  cases result : k a c'.machine with
  | ok b m =>
    rw [result] at rest
    obtain ⟨c'', is, later, holds⟩ := rest
    exact ⟨c'', is, whole later, holds⟩
  | error stop m =>
    rw [result] at rest
    obtain ⟨c'', is, later⟩ := rest
    exact ⟨c'', is, whole later⟩

theorem Tells.bind {x : Eval α} {k : α → Eval β} (first : Tells own c x Q)
    (rest : ∀ a c', Since own c c' → Q a c' → Tells own c' (k a) R) : Tells own c (x >>= k) R := by
  rw [Tells] at first
  cases result : x c.machine with
  | ok a m =>
    rw [result] at first
    obtain ⟨c', rfl, since, holds⟩ := first
    exact .after result since (rest a c' since holds) fun _ _ => id
  | error stop m =>
    rw [result] at first
    rw [Tells, bind_apply, result]
    exact first

/-- An evaluation that makes no methods in the scopes of the machine. -/
theorem Tells.narrow {x : Eval α} (tells : Tells (fun _ => False) c x Q) :
    Tells own c x fun a c' => Q a c' ∧ Since (fun _ => False) c c' := by
  have wide {c' : Chronicle part} (since : Since (fun _ => False) c c') : Since own c c' :=
    since.mono fun _ _ never => never.elim
  rw [Tells] at tells ⊢
  cases result : x c.machine with
  | ok a m =>
    rw [result] at tells
    obtain ⟨c', is, since, holds⟩ := tells
    exact ⟨c', is, wide since, holds, since⟩
  | error stop m =>
    rw [result] at tells
    obtain ⟨c', is, since⟩ := tells
    exact ⟨c', is, wide since⟩

theorem Tells.blaming {x : Eval α} (tells : Tells own c x Q) (span : Span) : Tells own c (blaming span x) Q := by
  rw [Tells] at tells ⊢
  rw [Eval.blaming]
  cases result : x c.machine <;> rw [result] at tells <;> exact tells

theorem tells_ofExcept {r : Except Fault α} (holds : ∀ a, r = .ok a → Q a c) : Tells own c (ofExcept r) Q := by
  cases r with
  | ok a => exact tells_pure (holds a rfl)
  | error fault => exact tells_fail fault

theorem tells_query {q : Store → Except Fault α} (holds : ∀ a, q c.machine.store = .ok a → Q a c) :
    Tells own c (query q) Q :=
  tells_ofExcept holds

theorem tells_get : Tells own c get fun _ _ => True := ⟨c, rfl, .refl c, trivial⟩

/-- An evaluation that leaves the store and the stamps alone. -/
theorem tells_aside {x : Eval α} {a : α} {m : Machine} (yields : x c.machine = .ok a m)
    (store : m.store = c.machine.store) (stamps : m.stamps = c.machine.stamps) :
    Tells own c x fun _ _ => True := by
  rw [Tells, yields]
  exact ⟨c.aside m store stamps, rfl, c.since_aside store stamps, trivial⟩

theorem tells_note (event : Event) : Tells own c (note event) fun _ _ => True := tells_aside rfl rfl rfl

theorem tells_emit (policy : Policy) (text : String) : Tells own c (emit policy text) fun _ _ => True := by
  by_cases room : fits policy c.machine text
  · exact tells_aside (if_pos room) rfl rfl
  · exact tells_aside (if_neg room) rfl rfl

theorem tells_write (slot : Slot) {v : Value} (explained : v.Explained part c.history) :
    Tells own c (write slot v) fun _ _ => True := by
  cases slot with
  | method => exact tells_aside rfl rfl rfl
  | stored id name => exact ⟨c.assign id name explained, rfl, c.since_assign id name explained, trivial⟩

/-- A name that is declared was free before, and then has a variable. -/
theorem tells_declare {scope : Scope} (here : scope ∈ c.machine.store.scopes) (name : String) (type : DeclaredType) :
    Tells own c (declare scope name type) fun _ c' => c'.history = c.history ∧
      (c.machine.store.declared scope).has name = false ∧ (c'.machine.store.declared scope).has name = true := by
  by_cases taken : (c.machine.store.declared scope).has name
  · rw [Tells, declare, if_pos taken]
    exact ⟨c, rfl, .refl c⟩
  · rw [Tells, declare, if_neg taken]
    refine ⟨c.add scope.table name type, rfl, c.since_add scope.table name type, rfl, by simpa using taken, ?_⟩
    have room : scope.table < c.machine.store.tables.size := (c.placed scope here).2
    change ((c.machine.store.modifyTable scope.table (·.add name type)).table scope.table).has name = true
    rw [Store.table_modifyTable, if_pos ⟨rfl, room⟩, Table.has_iff, Table.names_add]
    exact List.mem_append_right _ List.mem_cons_self

/-- What goes on in a new scope may make methods in it, which is not a scope of the machine before. -/
theorem Tells.nested {scope : Scope} {k : Scope → Eval β}
    (rest : ∀ inner c', Since own c c' → inner ∈ c'.machine.store.scopes → inner ∉ c.machine.store.scopes →
      c'.history = c.history → Tells (fun scope => own scope ∨ scope = inner) c' (k inner) R) :
    Tells own c (Eval.nested scope >>= k) R := by
  have fresh := c.inner_not_mem scope
  have within := rest _ (c.nest scope) (c.since_nest scope) (c.inner_mem_nest scope) fresh rfl
  refine Tells.after rfl (c.since_nest scope) within ?_
  rintro other here (may | rfl)
  · exact may
  · exact absurd here fresh

theorem tells_rounds {round : Eval Bool} (one : ∀ c', Since own c c' → Tells own c' round fun _ _ => True)
    (budget : Nat) : Tells own c (rounds budget round) fun _ _ => True := by
  induction budget generalizing c with
  | zero => exact tells_throw _
  | succ budget ih =>
    refine (one c (.refl c)).bind fun more c' since _ => ?_
    cases more with
    | true => exact ih fun c'' later => one c'' (since.trans later)
    | false => exact tells_pure trivial

end Eval

/-! ## Rules -/

namespace Evaluator

open Eval

def Recursion.Tells (part : Node → Prop) (rec : Recursion) : Prop :=
  ∀ (node : Node) {scope : Scope} {c : Chronicle part} {own : Scope → Prop}, node.Evaluable part →
    scope ∈ c.machine.store.scopes → Eval.Tells own c (rec node scope) fun v c' => v.Explained part c'.history

section Rules

variable {rec : Recursion} (below : rec.Tells part) {scope : Scope} {c : Chronicle part} {own : Scope → Prop}

include below

theorem value_tells {node : Node} (code : node.Evaluable part) (here : scope ∈ c.machine.store.scopes) :
    Tells own c (value rec node scope) fun v c' => v.Explained part c'.history := by
  refine (below node code here).bind fun v c' _ explained => ?_
  exact (tells_query fun x found => Store.explained_of_plain c'.values explained found).blaming _

theorem values_tells {nodes : List Node} (code : ∀ node ∈ nodes, node.Evaluable part)
    (here : scope ∈ c.machine.store.scopes) :
    Tells own c (values rec scope nodes) fun vs c' => ∀ v ∈ vs, v.Explained part c'.history := by
  induction nodes generalizing c with
  | nil => exact tells_pure (by simp)
  | cons node rest ih =>
    obtain ⟨first, others⟩ := List.forall_mem_cons.1 code
    refine (value_tells below first here).bind fun v c' since explained => ?_
    refine (ih others (since.scopes _ here)).bind fun vs c'' later all => ?_
    exact tells_pure (List.forall_mem_cons.2 ⟨later.includes.explains explained, all⟩)

theorem each_tells {nodes : List Node} (code : ∀ node ∈ nodes, node.Evaluable part)
    (here : scope ∈ c.machine.store.scopes) : Tells own c (each rec scope nodes) fun _ _ => True := by
  induction nodes generalizing c with
  | nil => exact tells_pure trivial
  | cons node rest ih =>
    obtain ⟨first, others⟩ := List.forall_mem_cons.1 code
    refine (below node first here).bind fun _ c' since _ => ?_
    exact ih others (since.scopes _ here)

theorem condition_tells {node : Node} (code : node.Evaluable part) (here : scope ∈ c.machine.store.scopes) :
    Tells own c (condition rec node scope) fun _ _ => True := by
  rw [condition]
  split
  · exact tells_pure trivial
  · refine (value_tells below code here).bind fun v c' _ _ => ?_
    exact (tells_ofExcept fun _ _ => trivial).blaming _

theorem target_tells {node : Node} (code : node.Evaluable part) (here : scope ∈ c.machine.store.scopes) :
    Tells own c (target rec node scope) fun slot c' => slot.Explained c'.history := by
  cases node with
  | identifier span parent name =>
    refine (below (.identifier span parent name) code here).bind fun v c' _ explained => ?_
    cases v with
    | slot slot => exact tells_pure explained
    | _ => exact tells_throw _
  | _ => exact tells_throw _

theorem statements_tells {result : Value} {nodes : List Node} (code : ∀ node ∈ nodes, node.Evaluable part)
    (here : scope ∈ c.machine.store.scopes) (explained : result.Explained part c.history) :
    Tells own c (statements rec scope result nodes) fun v c' => v.Explained part c'.history := by
  induction nodes generalizing c result with
  | nil => exact tells_pure explained
  | cons node rest ih =>
    obtain ⟨first, others⟩ := List.forall_mem_cons.1 code
    refine (below node first here).bind fun v c' since explained' => ?_
    exact ih others (since.scopes _ here) explained'

omit below in
/-- Operators yield numbers and truth values, which no history has to explain. -/
theorem explained_of_apply {op : BinaryOp} {l r v : Value} {h : History} (found : Operation.apply op l r = .ok v) :
    v.Explained part h := by
  have datum := Operation.isDatum_of_apply found
  cases v with
  | integer | double | boolean => trivial
  | _ => cases datum

theorem binary_tells (policy : Policy) (op : BinaryOp) {left right : Node} (codeLeft : left.Evaluable part)
    (codeRight : right.Evaluable part) (here : scope ∈ c.machine.store.scopes) :
    Tells own c (binary policy rec op left right scope) fun v c' => v.Explained part c'.history := by
  refine (value_tells below codeLeft here).bind fun l c' since _ => ?_
  have both : Tells own c'
      (do let r ← value rec right scope; Eval.ofExcept (Operation.apply op l r))
      fun v c' => v.Explained part c'.history := by
    refine (value_tells below codeRight (since.scopes _ here)).bind fun r c'' _ _ => ?_
    exact tells_ofExcept fun v found => explained_of_apply found
  dsimp only
  split
  · cases l with
    | boolean b =>
      dsimp only
      split
      · exact tells_pure trivial
      · exact both
    | _ => exact tells_fail _
  · exact both

theorem identifier_tells {parent : Node} (code : parent.Evaluable part) (name : String)
    (here : scope ∈ c.machine.store.scopes) :
    Tells own c (identifier rec parent name scope) fun v c' => v.Explained part c'.history := by
  have slot {q : Store → Except Fault Slot} {c' : Chronicle part}
      (explained : ∀ slot, q c'.machine.store = .ok slot → slot.Explained c'.history) :
      Tells own c' (do return Value.slot (← Eval.query q)) fun v c' => v.Explained part c'.history :=
    (tells_query (Q := fun slot c' => slot.Explained c'.history) explained).bind fun _ _ _ explained =>
      tells_pure explained
  rw [identifier]
  split
  · exact slot fun _ found => Store.explained_of_lookup found
  · refine (value_tells below code here).bind fun v c' since explained => ?_
    cases v with
    | blueprint b => exact slot fun _ found => Store.explained_of_classMember found
    | object o => exact slot fun _ found => Store.explained_of_objectMember explained found
    | _ => exact tells_fail _

theorem usage_tells {node : Node} (code : node.Evaluable part) (here : scope ∈ c.machine.store.scopes) :
    Tells own c (usage rec node scope) fun v c' => v.Explained part c'.history := by
  refine (target_tells below code here).bind fun slot c' _ explained => ?_
  exact tells_query fun v found => Store.explained_of_read c'.values explained found

theorem assignment_tells (op : AssignOp) {variableNode operandNode : Node} (codeTarget : variableNode.Evaluable part)
    (codeOperand : operandNode.Evaluable part) (here : scope ∈ c.machine.store.scopes) :
    Tells own c (assignment rec op variableNode operandNode scope) fun v c' => v.Explained part c'.history := by
  refine (target_tells below codeTarget here).bind fun slot c' since _ => ?_
  have store {c'' : Chronicle part} {v : Value} (explained : v.Explained part c''.history) :
      Tells own c'' (do Eval.write slot v; return v) fun v c' => v.Explained part c'.history :=
    (tells_write slot explained).bind fun _ _ later _ => tells_pure (later.includes.explains explained)
  have value : Tells own c' (value rec operandNode scope) fun v c' => v.Explained part c'.history :=
    value_tells below codeOperand (since.scopes _ here)
  cases op.arithmetic? with
  | none =>
    dsimp only
    split
    · exact store (v := .integer 1) trivial
    · exact value.bind fun operand c'' _ explained => store explained
  | some arithmetic =>
    -- The result of an operator is no function or class, so it needs no explanation.
    have combine {c'' : Chronicle part} (operand : Value) : Tells own c'' (do
        let result ← Eval.ofExcept (Operation.apply arithmetic (← Eval.query (·.read slot)) operand)
        Eval.write slot result
        return result) fun v c' => v.Explained part c'.history := by
      refine (tells_query (Q := fun _ _ => True) fun _ _ => trivial).bind fun _ _ _ _ => ?_
      refine (tells_ofExcept (Q := fun v c' => v.Explained part c'.history) fun v found =>
        explained_of_apply found).bind fun v _ _ explained => ?_
      exact store explained
    dsimp only
    split
    · exact combine (.integer 1)
    · exact value.bind fun operand c'' _ _ => combine operand

/-! ### Calls -/

omit below in
theorem bindAll_tells {frame : Scope} {bindings : List (String × Value)} (here : frame ∈ c.machine.store.scopes)
    (explained : ∀ binding ∈ bindings, binding.2.Explained part c.history) :
    Tells own c (bindAll frame bindings) fun _ _ => True := by
  induction bindings generalizing c with
  | nil => exact tells_pure trivial
  | cons binding rest ih =>
    obtain ⟨first, others⟩ := List.forall_mem_cons.1 explained
    refine (tells_declare here binding.1 .dynamic).bind fun slot c' since _ => ?_
    refine (tells_write slot (since.includes.explains first)).bind fun _ c'' later _ => ?_
    have both := since.trans later
    exact ih (both.scopes _ here) fun b member => both.includes.explains (others b member)

theorem serve_tells (policy : Policy) {arguments : List Node} (code : ∀ node ∈ arguments, node.Evaluable part)
    (here : scope ∈ c.machine.store.scopes) (host : Host) :
    Tells own c (serve policy rec arguments scope host) fun _ _ => True := by
  induction host generalizing c with
  | returns => exact tells_pure trivial
  | fails message => exact tells_throw _
  | writes text next ih =>
    exact (tells_emit policy text).bind fun wrote c' since _ => ih wrote (since.scopes _ here)
  | evaluates argument next ih =>
    rw [serve]
    cases given : arguments[argument]? with
    | none => exact ih none here
    | some node =>
      refine (below node (code node (List.mem_of_getElem? given)) here).bind fun _ c₁ first _ => ?_
      exact tells_get.bind fun _ c₂ second _ => ih _ ((first.trans second).scopes _ here)
  | looks next ih => exact tells_get.bind fun _ c' since _ => ih _ (since.scopes _ here)

theorem callNative_tells (policy : Policy) (native : Native) {arguments : List Node}
    (code : ∀ node ∈ arguments, node.Evaluable part) (here : scope ∈ c.machine.store.scopes) :
    Tells own c (callNative policy rec native arguments scope) fun _ _ => True := by
  cases native with
  | print ending =>
    refine (values_tells below code here).bind fun found c' _ _ => ?_
    refine (tells_emit policy _).bind fun wrote c'' _ _ => ?_
    cases wrote with
    | true => exact tells_pure trivial
    | false => exact tells_throw _
  | host act => exact serve_tells below policy code here _

omit below in
/-- The body of a function may be evaluated, unless the function is of the host. -/
theorem body_evaluable (stock : Stock part) {f : FunctionValue} (knows : c.history.Knows f) (user : f.native = none) :
    f.body.Evaluable part := by
  obtain ⟨d, code, ⟨span, rfl⟩, -⟩ := c.exists_declaration stock knows user
  exact stock.evaluable code rfl f.body List.mem_cons_self

theorem invoke_tells (stock : Stock part) (policy : Policy) {f : FunctionValue} (knows : c.history.Knows f)
    {arguments : List Node} (code : ∀ node ∈ arguments, node.Evaluable part)
    (here : scope ∈ c.machine.store.scopes) :
    Tells own c (invoke policy rec f arguments scope) fun _ _ => True := by
  refine (tells_note _).bind fun _ c' since _ => ?_
  have here' := since.scopes _ here
  cases user : f.native with
  | some native => exact callNative_tells below policy native code here'
  | none =>
    have enter : Tells own c'
        (do
          let found ← values rec scope arguments
          let frame ← Eval.nested f.closure
          bindAll frame (f.params.zip found)
          let _ ← rec f.body frame) fun _ _ => True := by
      refine (values_tells below code here').bind fun found c₁ _ explained => ?_
      refine Tells.nested fun frame c₂ second inside _ _ => ?_
      have bindings : ∀ binding ∈ f.params.zip found, binding.2.Explained part c₂.history := fun binding member =>
        second.includes.explains (explained _ (List.of_mem_zip member).2)
      refine (bindAll_tells inside bindings).bind fun _ c₃ third _ => ?_
      -- A known function without code of the host has a body from the program.
      refine (below f.body (body_evaluable stock knows user) (third.scopes _ inside)).bind ?_
      exact fun _ _ _ _ => tells_pure trivial
    dsimp only
    split
    · exact tells_fail _
    · exact enter

theorem call_tells (stock : Stock part) (policy : Policy) {callee : Node} {arguments : List Node}
    (codeCallee : callee.Evaluable part) (codeArguments : ∀ node ∈ arguments, node.Evaluable part)
    (here : scope ∈ c.machine.store.scopes) :
    Tells own c (call policy rec callee arguments scope) fun v c' => v.Explained part c'.history := by
  refine (value_tells below codeCallee here).bind fun v c' since explained => ?_
  cases v with
  | function f =>
    refine (invoke_tells below stock policy explained codeArguments (since.scopes _ here)).bind ?_
    exact fun _ _ _ _ => tells_pure trivial
  | _ => exact tells_fail _

/-! ### Classes and objects -/

/-- The scope of an object is in the history before the fields are evaluated. -/
theorem instantiate_tells {blueprint : ClassValue} (explained : blueprint.Explained part c.history) :
    Tells own c (instantiate rec blueprint) fun o c' => o.Explained part c'.history := by
  have spawned : Since own c (c.spawn blueprint.members) := c.since_spawn blueprint.members
  have inside : c.machine.store.inner (some blueprint.members) ∈ (c.spawn blueprint.members).machine.store.scopes :=
    c.inner_mem_nest blueprint.members
  refine Tells.after rfl spawned ?_ fun _ _ => id
  refine (each_tells below explained.fields inside).bind fun _ c₁ first _ => ?_
  refine tells_get.bind fun _ c₂ second _ => ?_
  refine (tells_note _).bind fun _ c₃ third _ => ?_
  have since := (first.trans second).trans third
  refine tells_pure ⟨(spawned.trans since).includes.explainsClass explained, ?_, rfl⟩
  exact since.includes.objects _ List.mem_cons_self

theorem instantiation_tells {blueprint : Node} (arguments : List Node) (code : blueprint.Evaluable part)
    (here : scope ∈ c.machine.store.scopes) :
    Tells own c (instantiation rec blueprint arguments scope) fun v c' => v.Explained part c'.history := by
  refine (value_tells below code here).bind fun v c' since explained => ?_
  cases v with
  | blueprint b =>
    dsimp only
    split
    · exact tells_fail _
    · exact (instantiate_tells below explained).bind fun o c'' _ explained => tells_pure explained
  | _ => exact tells_fail _

theorem member_tells : Recursion.Tells part (member rec) := by
  intro node scope c own code here
  cases node with
  | variableDeclaration | functionDeclaration | classDeclaration => exact below _ code here
  | _ => exact tells_throw _

omit below in
/-- A function is made if that is possible, and nothing else is. -/
theorem newFunction_tells {modifiers : Modifiers} {name : String} {params : List String} {body : Node}
    {closure : Scope}
    (admits : c.Admits ⟨c.machine.stamps, name, params, body, closure, modifiers, none⟩)
    (may : modifiers.ofMethod → own closure) :
    Tells own c (newFunction modifiers name params body closure) fun f c' =>
      c'.history = c.history.addFunction f ∧ f.closure = closure ∧ f.isMethod = modifiers.ofMethod ∧ f.name = name :=
  ⟨c.make _ admits, rfl, c.since_make admits may, rfl, rfl, rfl, rfl⟩

/-- The functions of a class that are not static are made in its member scope, and no other methods are made
    there. -/
theorem methods_tells (className : String) {members : Scope} {collected : List FunctionValue} {nodes : List Node}
    (code : ∀ node ∈ nodes, part node ∧ node.isMember = true) (here : members ∈ c.machine.store.scopes)
    (may : own members) (noObject : members ∉ c.history.objects)
    (collects : ∀ f ∈ collected, f ∈ c.history.made ∧ f.isMethod ∧ f.closure = members)
    (complete : ∀ f ∈ c.history.made, f.isMethod → f.closure = members → f ∈ collected) :
    Tells own c (methods rec className members collected nodes)
      fun fs c' => ∀ f ∈ fs, f ∈ c'.history.made ∧ f.isMethod ∧ f.closure = members := by
  induction nodes generalizing c collected with
  | nil => exact tells_pure collects
  | cons node rest ih =>
    obtain ⟨⟨codeFirst, member⟩, codeRest⟩ := List.forall_mem_cons.1 code
    cases node with
    | functionDeclaration span modifiers name params body =>
      have member : modifiers.inClass = true := member
      rw [methods]
      split
      case isTrue static =>
        have plain : modifiers.ofMethod = false := by simp [Modifiers.ofMethod, static]
        refine (below _ ⟨codeFirst, plain⟩ here).narrow.bind fun _ c' _ is => ?_
        have since := is.2
        refine ih codeRest (since.scopes _ here) (mt (since.objects _ · here) noObject)
          (fun f old => (collects f old).imp_left (since.includes.made f)) fun f made method closure => ?_
        -- A method in the member scope is not new: such a function makes none there.
        rcases since.methods f made method (closure ▸ here) with old | never
        · exact complete f old method closure
        · exact never.elim
      case isFalse dynamic =>
        have method : modifiers.ofMethod = true := by simp [Modifiers.ofMethod, member, dynamic]
        split
        · exact tells_throw _
        case isFalse free =>
          have admits : c.Admits ⟨c.machine.stamps, name, params, body, members, modifiers, none⟩ := {
            stamp := rfl
            closure := here
            written := fun _ => ⟨_, codeFirst, span, rfl⟩
            ofHost := fun host => by cases host
            named := fun _ plain => absurd (method.symm.trans plain) (by decide)
            fresh := fun _ g made _ same named closure =>
              free (List.any_eq_true.2 ⟨g, complete g made (same.trans method) closure, by simpa using named⟩)
            apart := fun _ => noObject }
          refine (newFunction_tells admits fun _ => may).bind ?_
          rintro f c' since ⟨history, closure, is, rfl⟩
          have added : f ∈ c'.history.made := by
            rw [history]
            exact List.mem_append_right _ List.mem_cons_self
          refine ih codeRest (since.scopes _ here) (mt (since.objects _ · here) noObject) ?_ ?_
          · refine List.forall_mem_append.2 ⟨fun g old => (collects g old).imp_left (since.includes.made g), ?_⟩
            exact List.forall_mem_singleton.2 ⟨added, is.trans method, closure⟩
          · intro g made method closure
            rw [history] at made
            rcases List.mem_append.1 made with old | new
            · exact List.mem_append_left _ (complete g old method closure)
            · exact List.mem_append_right _ new
    | _ => exact tells_throw _

theorem newClass_tells (modifiers : Modifiers) (name : String) {fields functions classes : List Node}
    (codeFields : ∀ node ∈ fields, node.Evaluable part)
    (codeFunctions : ∀ node ∈ functions, part node ∧ node.isMember = true)
    (codeClasses : ∀ node ∈ classes, node.Evaluable part) :
    Tells own c (newClass rec modifiers name fields functions classes scope)
      fun b c' => b.Explained part c'.history := by
  refine Tells.nested fun members c₁ _ inside fresh history => ?_
  have noObject : members ∉ c₁.history.objects := fun object => fresh (c.instances _ (history ▸ object))
  have noMethod : ∀ f ∈ c₁.history.made, f.closure ≠ members := fun f made closure =>
    fresh (closure ▸ c.closures f (history ▸ made))
  refine (each_tells (member_tells below) codeClasses inside).narrow.bind fun _ c₂ _ is => ?_
  have first := is.2
  have inside₂ := first.scopes _ inside
  -- The nested classes have left the member scope without methods.
  have complete : ∀ f ∈ c₂.history.made, f.isMethod → f.closure = members → f ∈ ([] : List FunctionValue) := by
    intro f made method closure
    rcases first.methods f made method (closure ▸ inside) with old | never
    · exact absurd closure (noMethod f old)
    · exact never.elim
  refine (methods_tells below name codeFunctions inside₂ (.inr rfl) (mt (first.objects _ · inside) noObject)
    (by simp) complete).bind fun prototype c₃ second made => ?_
  refine (each_tells (member_tells below) (fun node here => codeFields node (List.mem_filter.1 here).1)
    (second.scopes _ inside₂)).bind fun _ c₄ third _ => ?_
  refine tells_get.bind fun _ c₅ fourth _ => ?_
  refine (tells_note _).bind fun _ c₆ fifth _ => ?_
  have since := (third.trans fourth).trans fifth
  exact tells_pure ⟨fun f here => (made f here).imp_left (since.includes.made f),
    fun node here => codeFields node (List.mem_filter.1 here).1⟩

/-! ### Declarations and control flow -/

theorem variableDeclaration_tells (name : String) (type : DeclaredType) {initial : Node}
    (code : initial.Evaluable part) (here : scope ∈ c.machine.store.scopes) :
    Tells own c (variableDeclaration rec name type initial scope) fun v c' => v.Explained part c'.history := by
  refine (tells_declare here name type).bind fun _ c' since _ => ?_
  exact below initial code (since.scopes _ here)

omit below in
/-- The name of the function was free, so no function of this name was made in the scope. -/
theorem functionDeclaration_tells {span : Span} {modifiers : Modifiers} {name : String} {params : List String}
    {body : Node} (code : (Node.functionDeclaration span modifiers name params body).Evaluable part)
    (here : scope ∈ c.machine.store.scopes) :
    Tells own c (functionDeclaration modifiers name params body scope) fun v c' => v.Explained part c'.history := by
  have plain : modifiers.ofMethod = false := code.plain
  refine (tells_declare here name .function).bind ?_
  rintro slot c₁ first ⟨history, free, taken⟩
  have admits : c₁.Admits ⟨c₁.machine.stamps, name, params, body, scope, modifiers, none⟩ := {
    stamp := rfl
    closure := first.scopes _ here
    written := fun _ => ⟨_, code.code, span, rfl⟩
    ofHost := fun host => by cases host
    named := fun _ _ => taken
    -- An earlier function of this name would have left the name declared, but it was free.
    fresh := by
      intro _ g made user same named closure
      have declared := c.named g (history ▸ made) user (same.trans plain)
      rw [named, closure] at declared
      exact absurd (declared.symm.trans free) (by decide)
    apart := fun method => absurd (method.symm.trans plain) (by decide) }
  refine (newFunction_tells admits fun method => absurd (method.symm.trans plain) (by decide)).bind ?_
  rintro f c₂ _ ⟨history', -⟩
  have made : (Value.function f).Explained part c₂.history :=
    .made (history' ▸ List.mem_append_right _ List.mem_cons_self)
  refine (tells_write slot made).bind fun _ c₃ third _ => ?_
  exact tells_pure (third.includes.explains made)

theorem classDeclaration_tells (modifiers : Modifiers) (name : String) {fields functions classes : List Node}
    (codeFields : ∀ node ∈ fields, node.Evaluable part)
    (codeFunctions : ∀ node ∈ functions, part node ∧ node.isMember = true)
    (codeClasses : ∀ node ∈ classes, node.Evaluable part) (here : scope ∈ c.machine.store.scopes) :
    Tells own c (classDeclaration rec modifiers name fields functions classes scope)
      fun v c' => v.Explained part c'.history := by
  refine (tells_declare here name .blueprint).bind fun slot c₁ _ _ => ?_
  refine (newClass_tells below modifiers name codeFields codeFunctions codeClasses).bind fun b c₂ _ explained => ?_
  have explained : (Value.blueprint b).Explained part c₂.history := explained
  refine (tells_write slot explained).bind fun _ c₃ third _ => ?_
  exact tells_pure (third.includes.explains explained)

theorem block_tells {body : Node} (code : body.Evaluable part) :
    Tells own c (block rec body scope) fun _ _ => True := by
  refine Tells.nested fun inner c' _ inside _ _ => ?_
  exact (below body code inside).bind fun _ _ _ _ => tells_pure trivial

theorem whileLoop_tells (budget : Nat) {test body : Node} (codeTest : test.Evaluable part)
    (codeBody : body.Evaluable part) (here : scope ∈ c.machine.store.scopes) :
    Tells own c (whileLoop rec budget test body scope) fun v c' => v.Explained part c'.history := by
  refine (tells_rounds (fun c' since => ?_) budget).bind fun _ _ _ _ => tells_pure trivial
  refine (condition_tells below codeTest (since.scopes _ here)).bind fun holds c'' _ _ => ?_
  cases holds with
  | true => exact (block_tells below codeBody).bind fun _ _ _ _ => tells_pure trivial
  | false => exact tells_pure trivial

theorem doWhileLoop_tells (budget : Nat) {test body : Node} (codeTest : test.Evaluable part)
    (codeBody : body.Evaluable part) (here : scope ∈ c.machine.store.scopes) :
    Tells own c (doWhileLoop rec budget test body scope) fun v c' => v.Explained part c'.history := by
  refine (tells_rounds (fun c' since => ?_) budget).bind fun _ _ _ _ => tells_pure trivial
  refine (block_tells below codeBody).bind fun _ c'' later _ => ?_
  exact condition_tells below codeTest ((since.trans later).scopes _ here)

theorem forLoop_tells (budget : Nat) {declaration test round body : Node} (codeFirst : declaration.Evaluable part)
    (codeTest : test.Evaluable part) (codeRound : round.Evaluable part) (codeBody : body.Evaluable part) :
    Tells own c (forLoop rec budget declaration test round body scope) fun v c' => v.Explained part c'.history := by
  refine Tells.nested fun loop c₁ _ inside _ _ => ?_
  refine (below declaration codeFirst inside).bind fun _ c₂ first _ => ?_
  refine (tells_rounds (fun c₃ second => ?_) budget).bind fun _ _ _ _ => tells_pure trivial
  have since := first.trans second
  refine (condition_tells below codeTest (since.scopes _ inside)).bind fun holds c₄ third _ => ?_
  cases holds with
  | true =>
    refine (block_tells below codeBody).bind fun _ c₅ fourth _ => ?_
    refine (below round codeRound (((since.trans third).trans fourth).scopes _ inside)).bind ?_
    exact fun _ _ _ _ => tells_pure trivial
  | false => exact tells_pure trivial

theorem branch_tells {test body alternative : Node} (codeTest : test.Evaluable part)
    (codeBody : body.Evaluable part) (codeAlternative : alternative.Evaluable part) :
    Tells own c (branch rec test body alternative scope) fun v c' => v.Explained part c'.history := by
  refine Tells.nested fun inner c₁ _ inside _ _ => ?_
  refine (condition_tells below codeTest inside).bind fun holds c₂ since _ => ?_
  cases holds with
  | true => exact below body codeBody (since.scopes _ inside)
  | false => exact below alternative codeAlternative (since.scopes _ inside)

/-! ## All nodes -/

theorem rule_tells (stock : Stock part) (policy : Policy) (budget : Nat) {node : Node} (code : node.Evaluable part)
    (here : scope ∈ c.machine.store.scopes) :
    Tells own c (rule policy rec budget node scope) fun v c' => v.Explained part c'.history := by
  cases node with
  | absent | null | integer | double | boolean => exact tells_pure trivial
  | foreign => exact tells_fail _
  | tree span children => exact statements_tells below (stock.evaluable code.code rfl) here trivial
  | binary span op left right =>
    have inside := stock.evaluable code.code rfl
    exact binary_tells below policy op (inside left (by simp [Node.parts])) (inside right (by simp [Node.parts])) here
  | identifier span parent name =>
    exact identifier_tells below (stock.evaluable code.code rfl parent List.mem_cons_self) name here
  | usage span target => exact usage_tells below (stock.evaluable code.code rfl target List.mem_cons_self) here
  | assignment span op target value =>
    have inside := stock.evaluable code.code rfl
    exact assignment_tells below op (inside target (by simp [Node.parts])) (inside value (by simp [Node.parts])) here
  | call span callee arguments =>
    obtain ⟨first, others⟩ := List.forall_mem_cons.1 (stock.evaluable code.code rfl)
    exact call_tells below stock policy first others here
  | instantiation span blueprint arguments =>
    exact instantiation_tells below arguments (stock.evaluable code.code rfl blueprint List.mem_cons_self) here
  | variableDeclaration span modifiers name type initial =>
    exact variableDeclaration_tells below name type (stock.evaluable code.code rfl initial List.mem_cons_self) here
  | whileLoop span test body =>
    have inside := stock.evaluable code.code rfl
    exact whileLoop_tells below budget (inside test (by simp [Node.parts])) (inside body (by simp [Node.parts])) here
  | doWhileLoop span test body =>
    have inside := stock.evaluable code.code rfl
    exact doWhileLoop_tells below budget (inside test (by simp [Node.parts])) (inside body (by simp [Node.parts])) here
  | forLoop span declaration test round body =>
    have inside := stock.evaluable code.code rfl
    exact forLoop_tells below budget (inside declaration (by simp [Node.parts])) (inside test (by simp [Node.parts]))
      (inside round (by simp [Node.parts])) (inside body (by simp [Node.parts]))
  | branch span test body alternative =>
    have inside := stock.evaluable code.code rfl
    exact branch_tells below (inside test (by simp [Node.parts])) (inside body (by simp [Node.parts]))
      (inside alternative (by simp [Node.parts]))
  | functionDeclaration span modifiers name params body => exact functionDeclaration_tells code here
  | classDeclaration span modifiers name fields functions classes =>
    -- Here methods are among the parts, so the parts are not all evaluable on their own.
    have inside := stock.parts _ code.code
    obtain ⟨⟨plainFields, members⟩, plainClasses⟩ :
        ((∀ n ∈ fields, n.isMethod = false) ∧ ∀ n ∈ functions, n.isMember = true) ∧
          ∀ n ∈ classes, n.isMethod = false := by
      simpa [Node.sorts] using stock.sorts _ code.code
    exact classDeclaration_tells below modifiers name
      (fun n member => ⟨inside n (by simp [Node.parts, member]), plainFields n member⟩)
      (fun n member => ⟨inside n (by simp [Node.parts, member]), members n member⟩)
      (fun n member => ⟨inside n (by simp [Node.parts, member]), plainClasses n member⟩) here

end Rules

/-- Whatever is evaluated goes into the history of the machine. -/
theorem eval_tells (stock : Stock part) (policy : Policy) (budget : Nat) :
    Recursion.Tells part (eval policy budget) := by
  induction budget with
  | zero => exact fun _ _ _ _ _ _ => tells_throw _
  | succ budget ih =>
    intro node scope c own code here
    rw [eval]
    exact (rule_tells ih stock policy budget code here).blaming node.span

end Evaluator

end ClassScript
