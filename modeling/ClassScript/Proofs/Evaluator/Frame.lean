import ClassScript.Proofs.Store.Resolution

/-! # What an evaluation does to the store

An evaluation keeps the store well-formed and extends it, whether it yields a value or stops, and the
only table among those it found that it may add variables to is the one of the scope it runs in.  Nodes
that are `Quiet` do not even do that: they leave the names of every scope alone.

`Leads own m x Q` says of an evaluation from the machine `m` that it keeps the store well-formed, adds
variables to no old table outside of `own`, and that what it yields has the property `Q`.
-/

namespace ClassScript

/-- Nodes that declare nothing in the scope they are evaluated in.  A loop that counts and a branch
    declare in scopes of their own, and so does the body of any loop; the arguments of an instantiation
    are never evaluated. -/
inductive Node.Quiet : Node → Prop
  | absent : Quiet .absent
  | foreign (span : Span) (typeName : String) : Quiet (.foreign span typeName)
  | integer (span : Span) (value : Int64) : Quiet (.integer span value)
  | double (span : Span) (value : Float) : Quiet (.double span value)
  | boolean (span : Span) (value : Bool) : Quiet (.boolean span value)
  | null (span : Span) : Quiet (.null span)
  | binary (span : Span) (op : BinaryOp) {left right : Node} :
      Quiet left → Quiet right → Quiet (.binary span op left right)
  | identifier (span : Span) {parent : Node} (name : String) :
      Quiet parent → Quiet (.identifier span parent name)
  | usage (span : Span) {target : Node} : Quiet target → Quiet (.usage span target)
  | assignment (span : Span) (op : AssignOp) {target value : Node} :
      Quiet target → Quiet value → Quiet (.assignment span op target value)
  | call (span : Span) {callee : Node} {arguments : List Node} :
      Quiet callee → (∀ node ∈ arguments, Quiet node) → Quiet (.call span callee arguments)
  | instantiation (span : Span) {blueprint : Node} (arguments : List Node) :
      Quiet blueprint → Quiet (.instantiation span blueprint arguments)
  | whileLoop (span : Span) {test : Node} (body : Node) :
      Quiet test → Quiet (.whileLoop span test body)
  | doWhileLoop (span : Span) {test : Node} (body : Node) :
      Quiet test → Quiet (.doWhileLoop span test body)
  | forLoop (span : Span) (declaration test round body : Node) :
      Quiet (.forLoop span declaration test round body)
  | branch (span : Span) (test body alternative : Node) :
      Quiet (.branch span test body alternative)

/-! ## One machine after another -/

namespace Machine

/-- The machine is sound: its store is well-formed under its root scope. -/
def Sound (m : Machine) : Prop := m.store.WellFormed m.root

structure Stands (scope : Scope) (m : Machine) : Prop where
  sound : m.Sound
  here : scope ∈ m.store.scopes

/-- What a machine may become: sound, with the same root scope and a store that is built from its own and extends
    it. -/
structure Follows (own : TableId → Prop) (m m' : Machine) : Prop where
  sound : m'.Sound
  root : m'.root = m.root
  grown : m.store.Extends own m'.store
  built : m.store.Built → m'.store.Built

variable {own own' : TableId → Prop} {m m' m'' : Machine}

theorem Follows.refl (sound : m.Sound) : m.Follows own m := ⟨sound, rfl, .refl _, id⟩

theorem Follows.trans (first : m.Follows own m') (second : m'.Follows own m'') : m.Follows own m'' :=
  ⟨second.sound, second.root.trans first.root, first.grown.trans second.grown, second.built ∘ first.built⟩

theorem Follows.mono (follows : m.Follows own m')
    (may : ∀ id < m.store.tables.size, own id → own' id) : m.Follows own' m' :=
  ⟨follows.sound, follows.root, follows.grown.mono may, follows.built⟩

theorem Follows.stands (follows : m.Follows own m') {scope : Scope} (here : scope ∈ m.store.scopes) :
    m'.Stands scope :=
  ⟨follows.sound, follows.grown.mem here⟩

end Machine

/-! ## Steps -/

namespace Eval

open Machine

variable {α β : Type} {own own' : TableId → Prop} {m : Machine}
  {Q : α → Store → Prop} {R : β → Store → Prop}

/-- The evaluation leads from a machine to one that may follow it, and yields what has a property. -/
def Leads (own : TableId → Prop) (m : Machine) (x : Eval α) (Q : α → Store → Prop) : Prop :=
  match x m with
  | .ok a m' => m.Follows own m' ∧ Q a m'.store
  | .error _ m' => m.Follows own m'

theorem leads_pure (sound : m.Sound) {a : α} (holds : Q a m.store) : Leads own m (pure a) Q :=
  ⟨.refl sound, holds⟩

theorem leads_throw (sound : m.Sound) (stop : Stop) : Leads own m (throw stop) Q :=
  Follows.refl sound

theorem leads_fail (sound : m.Sound) (fault : Fault) : Leads own m (fail fault) Q :=
  Follows.refl sound

theorem Leads.bind {x : Eval α} {k : α → Eval β} (first : Leads own m x Q)
    (rest : ∀ a m', m.Follows own m' → Q a m'.store → Leads own m' (k a) R) :
    Leads own m (x >>= k) R := by
  rw [Leads] at first
  rw [Leads, bind_apply]
  cases result : x m with
  | error stop m' =>
    rw [result] at first
    exact first
  | ok a m' =>
    rw [result] at first
    obtain ⟨follows, holds⟩ := first
    have next := rest a m' follows holds
    rw [Leads] at next
    dsimp only
    cases after : k a m' with
    | error stop m'' =>
      rw [after] at next
      exact follows.trans next
    | ok b m'' =>
      rw [after] at next
      exact ⟨follows.trans next.1, next.2⟩

theorem Leads.imp {x : Eval α} {Q' : α → Store → Prop} (leads : Leads own m x Q)
    (weaker : ∀ a s, Q a s → Q' a s) : Leads own m x Q' := by
  rw [Leads] at leads ⊢
  cases result : x m with
  | ok a m' =>
    rw [result] at leads
    exact ⟨leads.1, weaker a m'.store leads.2⟩
  | error stop m' =>
    rw [result] at leads
    exact leads

theorem Leads.blaming {x : Eval α} (leads : Leads own m x Q) (span : Span) :
    Leads own m (blaming span x) Q := by
  rw [Leads] at leads ⊢
  rw [Eval.blaming]
  cases result : x m with
  | ok a m' =>
    rw [result] at leads
    exact leads
  | error stop m' =>
    rw [result] at leads
    exact leads

theorem leads_ofExcept (sound : m.Sound) {r : Except Fault α} (holds : ∀ a, r = .ok a → Q a m.store) :
    Leads own m (ofExcept r) Q := by
  cases r with
  | ok a => exact leads_pure sound (holds a rfl)
  | error fault => exact leads_fail sound fault

theorem leads_query (sound : m.Sound) {q : Store → Except Fault α}
    (holds : ∀ a, q m.store = .ok a → Q a m.store) : Leads own m (query q) Q :=
  leads_ofExcept sound holds

theorem leads_get (sound : m.Sound) : Leads own m get fun _ _ => True :=
  ⟨.refl sound, trivial⟩

/-- An evaluation that leaves the store and the root scope alone. -/
theorem leads_aside (sound : m.Sound) {x : Eval α} {a : α} {m' : Machine} (yields : x m = .ok a m')
    (store : m'.store = m.store) (root : m'.root = m.root) : Leads own m x fun _ _ => True := by
  rw [Leads, yields]
  refine ⟨⟨?_, root, ?_, ?_⟩, trivial⟩
  · rw [Sound, store, root]
    exact sound
  · rw [store]
    exact .refl _
  · rw [store]
    exact id

theorem leads_note (sound : m.Sound) (event : Event) : Leads own m (note event) fun _ _ => True :=
  leads_aside sound rfl rfl rfl

theorem leads_stamp (sound : m.Sound) : Leads own m stamp fun _ _ => True :=
  leads_aside sound rfl rfl rfl

theorem leads_emit (sound : m.Sound) (policy : Policy) (text : String) :
    Leads own m (emit policy text) fun _ _ => True := by
  by_cases room : fits policy m text
  · exact leads_aside sound (if_pos room) rfl rfl
  · exact leads_aside sound (if_neg room) rfl rfl

theorem leads_write (sound : m.Sound) (slot : Slot) {v : Value} (held : v.Held m.store) :
    Leads own m (write slot v) fun _ _ => True := by
  obtain ⟨sound', grown⟩ := Store.WellFormed.write sound slot held
  exact ⟨⟨sound', rfl, grown.mono fun _ _ never => never.elim, .write slot v⟩, trivial⟩

theorem leads_declare {scope : Scope} (stands : m.Stands scope) (may : own scope.table) (name : String)
    (type : DeclaredType) : Leads own m (declare scope name type) fun slot s => slot.Held s := by
  by_cases taken : (m.store.declared scope).has name
  · rw [Leads, declare, if_pos taken]
    exact Follows.refl stands.sound
  · rw [Leads, declare, if_neg taken]
    obtain ⟨sound', grown, held⟩ :=
      stands.sound.declare stands.here (by simpa using taken) type
    have declared : m.store.declare scope name type = .ok _ := if_neg taken
    exact ⟨⟨sound', rfl, grown.mono fun id _ same => same ▸ may, (.declare · stands.here declared)⟩, held⟩

theorem nested_run {scope : Scope} (stands : m.Stands scope) :
    ∃ inner m', Eval.nested scope m = .ok inner m' ∧ m.Follows (fun _ => False) m' ∧
      m'.Stands inner ∧ inner.parent? = some scope ∧ inner.table = m.store.tables.size := by
  obtain ⟨sound', grown, here, parent, fresh⟩ := stands.sound.grow stands.here
  have outside : ∀ outer ∈ some scope, outer ∈ m.store.scopes := by
    rintro _ ⟨⟩
    exact stands.here
  exact ⟨_, _, rfl, ⟨sound', rfl, grown, (.nest · outside)⟩, ⟨sound', here⟩, parent, fresh⟩

/-- What goes on in a new scope may declare in it and still adds to no old table outside of `own`. -/
theorem Leads.nested {scope : Scope} (stands : m.Stands scope) {k : Scope → Eval β}
    (rest : ∀ inner m', m.Follows own m' → m'.Stands inner → inner.parent? = some scope →
      Leads (fun id => own id ∨ id = inner.table) m' (k inner) R) :
    Leads own m (Eval.nested scope >>= k) R := by
  obtain ⟨inner, m', run, follows, stands', parent, fresh⟩ := nested_run stands
  have next := rest inner m' (follows.mono fun _ _ never => never.elim) stands' parent
  -- The new table is no old one, so that what is added to it is not held against `own`.
  have within {m'' : Machine} (after : m'.Follows (fun id => own id ∨ id = inner.table) m'') :
      m.Follows own m'' := by
    refine ((follows.mono fun _ _ never => never.elim).trans after).mono fun id bound here => ?_
    rcases here with may | last
    · exact may
    · exact absurd (last.trans fresh) (Nat.ne_of_lt bound)
  rw [Leads] at next
  rw [Leads, bind_apply, run]
  dsimp only
  cases after : k inner m' with
  | ok b m'' =>
    rw [after] at next
    exact ⟨within next.1, next.2⟩
  | error stop m'' =>
    rw [after] at next
    exact within next

theorem leads_rounds (sound : m.Sound) {round : Eval Bool}
    (one : ∀ m', m.Follows own m' → Leads own m' round fun _ _ => True) (budget : Nat) :
    Leads own m (rounds budget round) fun _ _ => True := by
  induction budget generalizing m with
  | zero => exact leads_throw sound _
  | succ budget ih =>
    refine (one m (.refl sound)).bind fun more m' follows _ => ?_
    cases more with
    | true =>
      exact ih follows.sound fun m'' later => one m'' (follows.trans later)
    | false => exact leads_pure follows.sound trivial

end Eval

/-! ## Rules -/

namespace Evaluator

open Machine Eval

/-- Nodes are evaluated as this module says: in a scope of the machine, adding variables to no old table
    but that of the scope, and not even to that if the node is quiet. -/
def Recursion.Leads (rec : Recursion) : Prop :=
  ∀ (node : Node) {scope : Scope} {m : Machine} {own : TableId → Prop}, m.Stands scope →
    (¬ node.Quiet → own scope.table) → Eval.Leads own m (rec node scope) fun v s => v.Held s

section Rules

variable {rec : Recursion} (below : rec.Leads) {scope : Scope} {m : Machine} {own : TableId → Prop}

include below

theorem value_leads (node : Node) (stands : m.Stands scope) (may : ¬ node.Quiet → own scope.table) :
    Leads own m (value rec node scope) fun v s => v.Kept s := by
  refine (below node stands may).bind fun v m' follows held => ?_
  exact (leads_query follows.sound fun x found => follows.sound.plain_kept held found).blaming _

theorem values_leads (nodes : List Node) (stands : m.Stands scope)
    (may : ∀ node ∈ nodes, ¬ node.Quiet → own scope.table) :
    Leads own m (values rec scope nodes) fun vs s => ∀ v ∈ vs, v.Kept s := by
  induction nodes generalizing m with
  | nil => exact leads_pure stands.sound fun _ none => nomatch none
  | cons node rest ih =>
    obtain ⟨mayFirst, mayRest⟩ := List.forall_mem_cons.1 may
    refine (value_leads below node stands mayFirst).bind fun v m' follows kept => ?_
    refine (ih (follows.stands stands.here) mayRest).bind fun vs m'' later all => ?_
    exact leads_pure later.sound (List.forall_mem_cons.2 ⟨later.grown.kept kept, all⟩)

theorem each_leads (nodes : List Node) (stands : m.Stands scope)
    (may : ∀ node ∈ nodes, ¬ node.Quiet → own scope.table) :
    Leads own m (each rec scope nodes) fun _ _ => True := by
  induction nodes generalizing m with
  | nil => exact leads_pure stands.sound trivial
  | cons node rest ih =>
    obtain ⟨mayFirst, mayRest⟩ := List.forall_mem_cons.1 may
    refine (below node stands mayFirst).bind fun _ m' follows _ => ?_
    exact ih (follows.stands stands.here) mayRest

theorem condition_leads (node : Node) (stands : m.Stands scope)
    (may : ¬ node.Quiet → own scope.table) :
    Leads own m (condition rec node scope) fun _ _ => True := by
  rw [condition]
  split
  · exact leads_pure stands.sound trivial
  · refine (value_leads below node stands may).bind fun v m' follows _ => ?_
    exact (leads_ofExcept follows.sound fun _ _ => trivial).blaming _

theorem target_leads (node : Node) (stands : m.Stands scope) (may : ¬ node.Quiet → own scope.table) :
    Leads own m (target rec node scope) fun slot s => slot.Held s := by
  cases node with
  | identifier span parent name =>
    refine (below (.identifier span parent name) stands may).bind fun v m' follows held => ?_
    cases v with
    | slot slot => exact leads_pure follows.sound held
    | _ => exact leads_throw follows.sound _
  | _ => exact leads_throw stands.sound _

theorem statements_leads (result : Value) (nodes : List Node) (stands : m.Stands scope)
    (may : ∀ node ∈ nodes, ¬ node.Quiet → own scope.table) (held : result.Held m.store) :
    Leads own m (statements rec scope result nodes) fun v s => v.Held s := by
  induction nodes generalizing m result with
  | nil => exact leads_pure stands.sound held
  | cons node rest ih =>
    obtain ⟨mayFirst, mayRest⟩ := List.forall_mem_cons.1 may
    refine (below node stands mayFirst).bind fun v m' follows held' => ?_
    exact ih v (follows.stands stands.here) mayRest held'

theorem binary_leads (policy : Policy) (op : BinaryOp) (left right : Node) (stands : m.Stands scope)
    (mayLeft : ¬ left.Quiet → own scope.table) (mayRight : ¬ right.Quiet → own scope.table) :
    Leads own m (binary policy rec op left right scope) fun v s => v.Kept s := by
  refine (value_leads below left stands mayLeft).bind fun l m' follows kept => ?_
  have both : Leads own m'
      (do let r ← value rec right scope; Eval.ofExcept (Operation.apply op l r)) fun v s => v.Kept s := by
    refine (value_leads below right (follows.stands stands.here) mayRight).bind fun r m'' later _ => ?_
    exact leads_ofExcept later.sound fun v found => Operation.kept_of_apply _ found
  dsimp only
  split
  · cases l with
    | boolean b =>
      dsimp only
      split
      · exact leads_pure follows.sound kept
      · exact both
    | _ => exact leads_fail follows.sound _
  · exact both

theorem identifier_leads (parent : Node) (name : String) (stands : m.Stands scope)
    (may : ¬ parent.Quiet → own scope.table) :
    Leads own m (identifier rec parent name scope) fun v s => v.Held s := by
  have slot {q : Store → Except Fault Slot} {m' : Machine} (sound : m'.Sound)
      (held : ∀ slot, q m'.store = .ok slot → slot.Held m'.store) :
      Leads own m' (do return Value.slot (← Eval.query q)) fun v s => v.Held s :=
    (leads_query (Q := fun slot s => slot.Held s) sound held).bind fun _ _ later held =>
      leads_pure later.sound held
  rw [identifier]
  split
  · exact slot stands.sound fun _ found => Store.held_of_lookup found
  · refine (value_leads below parent stands may).bind fun v m' follows kept => ?_
    cases v with
    | blueprint c => exact slot follows.sound fun _ found => Store.held_of_classMember found
    | object o => exact slot follows.sound fun _ found => Store.held_of_objectMember kept.2 found
    | _ => exact leads_fail follows.sound _

theorem usage_leads (node : Node) (stands : m.Stands scope) (may : ¬ node.Quiet → own scope.table) :
    Leads own m (usage rec node scope) fun v s => v.Kept s := by
  refine (target_leads below node stands may).bind fun slot m' follows held => ?_
  exact leads_query follows.sound fun v found => follows.sound.read_kept held found

theorem assignment_leads (op : AssignOp) (variableNode operandNode : Node) (stands : m.Stands scope)
    (mayTarget : ¬ variableNode.Quiet → own scope.table)
    (mayOperand : ¬ operandNode.Quiet → own scope.table) :
    Leads own m (assignment rec op variableNode operandNode scope) fun v s => v.Kept s := by
  refine (target_leads below variableNode stands mayTarget).bind fun slot m' follows held => ?_
  have store {m'' : Machine} (sound : m''.Sound) {v : Value} (kept : v.Kept m''.store) :
      Leads own m'' (do Eval.write slot v; return v) fun v s => v.Kept s :=
    (leads_write sound slot kept.2).bind fun _ _ later _ => leads_pure later.sound (later.grown.kept kept)
  have value := value_leads below operandNode (follows.stands stands.here) mayOperand
  cases op.arithmetic? with
  | none =>
    dsimp only
    split
    · exact store follows.sound (v := .integer 1) ⟨rfl, trivial⟩
    · exact value.bind fun operand m'' later kept => store later.sound kept
  | some arithmetic =>
    -- What an operator yields is kept in any store, whatever it was read from.
    have combine {m'' : Machine} (sound : m''.Sound) (operand : Value) : Leads own m'' (do
        let result ← Eval.ofExcept (Operation.apply arithmetic (← Eval.query (·.read slot)) operand)
        Eval.write slot result
        return result) fun v s => v.Kept s := by
      refine (leads_query (Q := fun _ _ => True) sound fun _ _ => trivial).bind fun _ _ later _ => ?_
      refine (leads_ofExcept (Q := fun v s => v.Kept s) later.sound fun v found =>
        Operation.kept_of_apply _ found).bind fun v _ last kept => ?_
      exact store last.sound kept
    dsimp only
    split
    · exact combine follows.sound (.integer 1)
    · exact value.bind fun operand m'' later _ => combine later.sound operand

/-! ### Calls -/

omit below in
theorem bindAll_leads {frame : Scope} (bindings : List (String × Value)) (stands : m.Stands frame)
    (may : own frame.table) (held : ∀ binding ∈ bindings, binding.2.Held m.store) :
    Leads own m (bindAll frame bindings) fun _ _ => True := by
  induction bindings generalizing m with
  | nil => exact leads_pure stands.sound trivial
  | cons binding rest ih =>
    obtain ⟨heldFirst, heldRest⟩ := List.forall_mem_cons.1 held
    refine (leads_declare stands may binding.1 .dynamic).bind fun slot m' follows _ => ?_
    refine (leads_write follows.sound slot (follows.grown.held heldFirst)).bind fun _ m'' later _ => ?_
    have both := follows.trans later
    exact ih (both.stands stands.here) fun b member =>
      both.grown.held (heldRest b member)

theorem serve_leads (policy : Policy) (arguments : List Node) (stands : m.Stands scope)
    (may : ∀ node ∈ arguments, ¬ node.Quiet → own scope.table) (host : Host) :
    Leads own m (serve policy rec arguments scope host) fun _ _ => True := by
  induction host generalizing m with
  | returns => exact leads_pure stands.sound trivial
  | fails message => exact leads_throw stands.sound _
  | writes text next ih =>
    refine (leads_emit stands.sound policy text).bind fun wrote m' follows _ => ?_
    exact ih wrote (follows.stands stands.here)
  | evaluates argument next ih =>
    rw [serve]
    cases given : arguments[argument]? with
    | none => exact ih none stands
    | some node =>
      refine (below node stands (may node (List.mem_of_getElem? given))).bind fun _ m₁ first _ => ?_
      refine (leads_get first.sound).bind fun _ m₂ second _ => ?_
      exact ih _ ((first.trans second).stands stands.here)
  | looks next ih =>
    refine (leads_get stands.sound).bind fun _ m' follows _ => ?_
    exact ih _ (follows.stands stands.here)

theorem callNative_leads (policy : Policy) (native : Native) (arguments : List Node)
    (stands : m.Stands scope) (may : ∀ node ∈ arguments, ¬ node.Quiet → own scope.table) :
    Leads own m (callNative policy rec native arguments scope) fun _ _ => True := by
  cases native with
  | print ending =>
    refine (values_leads below arguments stands may).bind fun found m' follows _ => ?_
    refine (leads_emit follows.sound policy _).bind fun wrote m'' later _ => ?_
    cases wrote with
    | true => exact leads_pure later.sound trivial
    | false => exact leads_throw later.sound _
  | host act => exact serve_leads below policy arguments stands may _

theorem invoke_leads (policy : Policy) {f : FunctionValue} (arguments : List Node)
    (stands : m.Stands scope) (may : ∀ node ∈ arguments, ¬ node.Quiet → own scope.table)
    (closure : f.closure ∈ m.store.scopes) :
    Leads own m (invoke policy rec f arguments scope) fun _ _ => True := by
  refine (leads_note stands.sound _).bind fun _ m' follows _ => ?_
  have stands' := follows.stands stands.here
  have closure' := follows.grown.mem closure
  have enter : Leads own m'
      (do
        let found ← values rec scope arguments
        let frame ← Eval.nested f.closure
        bindAll frame (f.params.zip found)
        let _ ← rec f.body frame) fun _ _ => True := by
    refine (values_leads below arguments stands' may).bind fun found m₁ first kept => ?_
    refine Leads.nested (first.stands closure') fun frame m₂ second inside _ => ?_
    have held : ∀ binding ∈ f.params.zip found, binding.2.Held m₂.store := fun binding member =>
      second.grown.held (kept _ (List.of_mem_zip member).2).2
    refine (bindAll_leads _ inside (.inr rfl) held).bind fun _ m₃ third _ => ?_
    -- The frame is new, hence the body may declare in it.
    refine (below f.body (third.stands inside.here) fun _ => .inr rfl).bind ?_
    exact fun _ _ last _ => leads_pure last.sound trivial
  cases f.native with
  | some native => exact callNative_leads below policy native arguments stands' may
  | none =>
    dsimp only
    split
    · exact leads_fail follows.sound _
    · exact enter

theorem call_leads (policy : Policy) (callee : Node) (arguments : List Node) (stands : m.Stands scope)
    (mayCallee : ¬ callee.Quiet → own scope.table)
    (mayArguments : ∀ node ∈ arguments, ¬ node.Quiet → own scope.table) :
    Leads own m (call policy rec callee arguments scope) fun v s => v.Kept s := by
  refine (value_leads below callee stands mayCallee).bind fun v m' follows kept => ?_
  cases v with
  | function f =>
    refine (invoke_leads below policy arguments (follows.stands stands.here) mayArguments kept.2).bind ?_
    exact fun _ _ later _ => leads_pure later.sound ⟨rfl, trivial⟩
  | _ => exact leads_fail follows.sound _

/-! ### Classes and objects -/

theorem instantiate_leads {c : ClassValue} (sound : m.Sound) (held : c.Held m.store) :
    Leads own m (instantiate rec c) fun o s => o.Held s := by
  refine Leads.nested ⟨sound, held.members⟩ fun inner m₁ first inside parent => ?_
  refine (each_leads below c.fields inside fun _ _ _ => .inr rfl).bind fun _ m₂ second _ => ?_
  refine (leads_get second.sound).bind fun _ m₃ third _ => ?_
  refine (leads_note third.sound _).bind fun _ m₄ fourth _ => ?_
  have since := (second.trans third).trans fourth
  exact leads_pure fourth.sound
    ⟨since.grown.heldClass (first.grown.heldClass held), since.grown.mem inside.here, parent⟩

theorem instantiation_leads (blueprint : Node) (arguments : List Node) (stands : m.Stands scope)
    (may : ¬ blueprint.Quiet → own scope.table) :
    Leads own m (instantiation rec blueprint arguments scope) fun v s => v.Kept s := by
  refine (value_leads below blueprint stands may).bind fun v m' follows kept => ?_
  cases v with
  | blueprint c =>
    dsimp only
    split
    · exact leads_fail follows.sound _
    · refine (instantiate_leads below follows.sound kept.2).bind fun o m'' later held => ?_
      exact leads_pure later.sound ⟨rfl, held⟩
  | _ => exact leads_fail follows.sound _

omit below in
theorem newFunction_leads (sound : m.Sound) (modifiers : Modifiers) (name : String)
    (params : List String) (body : Node) (closure : Scope) :
    Leads own m (newFunction modifiers name params body closure)
      fun f _ => f.closure = closure ∧ f.name = name :=
  (leads_stamp sound).bind fun _ _ later _ => leads_pure later.sound ⟨rfl, rfl⟩

theorem member_leads : Recursion.Leads (member rec) := by
  intro node scope m own stands may
  cases node with
  | variableDeclaration | functionDeclaration | classDeclaration => exact below _ stands may
  | _ => exact leads_throw stands.sound _

/-- The functions of a class close over its member scope, and no two have one name. -/
theorem methods_leads (className : String) {members : Scope} {collected : List FunctionValue}
    (nodes : List Node) (stands : m.Stands members) (may : own members.table)
    (closures : ∀ f ∈ collected, f.closure = members) (distinct : (collected.map (·.name)).Nodup) :
    Leads own m (methods rec className members collected nodes)
      fun fs _ => (∀ f ∈ fs, f.closure = members) ∧ (fs.map (·.name)).Nodup := by
  induction nodes generalizing m collected with
  | nil => exact leads_pure stands.sound ⟨closures, distinct⟩
  | cons node rest ih =>
    have pass : Leads own m (do let _ ← rec node members; methods rec className members collected rest)
        fun fs _ => (∀ f ∈ fs, f.closure = members) ∧ (fs.map (·.name)).Nodup :=
      (below node stands fun _ => may).bind fun _ _ follows _ =>
        ih (follows.stands stands.here) closures distinct
    cases node with
    | functionDeclaration span modifiers name params body =>
      rw [methods]
      split
      · exact pass
      · split
        · exact leads_throw stands.sound _
        case isFalse free =>
          refine (newFunction_leads stands.sound modifiers name params body members).bind ?_
          rintro f m' follows ⟨closure, rfl⟩
          refine ih (follows.stands stands.here) ?_ ?_
          · intro g member
            rcases List.mem_append.1 member with old | new
            · exact closures g old
            · rw [List.mem_singleton.1 new]
              exact closure
          · rw [List.map_append, List.map_singleton]
            -- The name of the new method was tested against those of all collected ones.
            refine List.nodup_append.2 ⟨distinct, by simp, ?_⟩
            intro a there b here same
            obtain ⟨g, old, rfl⟩ := List.mem_map.1 there
            rw [List.mem_singleton.1 here] at same
            exact free (List.any_eq_true.2 ⟨g, old, by simpa using same⟩)
    | _ => exact leads_throw stands.sound _

theorem newClass_leads (modifiers : Modifiers) (name : String) (fields functions classes : List Node)
    (stands : m.Stands scope) :
    Leads own m (newClass rec modifiers name fields functions classes scope) fun c s => c.Held s := by
  refine Leads.nested stands fun members m₁ _ inside _ => ?_
  have anything : ∀ nodes : List Node, ∀ node ∈ nodes, ¬ node.Quiet →
      own members.table ∨ members.table = members.table := fun _ _ _ _ => .inr rfl
  refine (each_leads (member_leads below) classes inside (anything _)).bind fun _ m₂ first _ => ?_
  refine (methods_leads below name functions (first.stands inside.here) (.inr rfl)
    (by simp) (by simp)).bind fun prototype m₃ second own => ?_
  have inside' := (first.trans second).stands inside.here
  refine (each_leads (member_leads below) _ inside' (anything _)).bind fun _ m₄ third _ => ?_
  refine (leads_get third.sound).bind fun _ m₅ fourth _ => ?_
  refine (leads_note fourth.sound _).bind fun _ m₆ fifth _ => ?_
  have since := (third.trans fourth).trans fifth
  exact leads_pure fifth.sound ⟨since.grown.mem inside'.here, own.1, own.2⟩

/-! ### Declarations and control flow -/

theorem variableDeclaration_leads (name : String) (type : DeclaredType) (initial : Node)
    (stands : m.Stands scope) (may : own scope.table) :
    Leads own m (variableDeclaration rec name type initial scope) fun v s => v.Held s := by
  refine (leads_declare stands may name type).bind fun _ m' follows _ => ?_
  exact below initial (follows.stands stands.here) fun _ => may

omit below in
theorem functionDeclaration_leads (modifiers : Modifiers) (name : String) (params : List String)
    (body : Node) (stands : m.Stands scope) (may : own scope.table) :
    Leads own m (functionDeclaration modifiers name params body scope) fun v s => v.Held s := by
  refine (leads_declare stands may name .function).bind fun slot m₁ first _ => ?_
  refine (newFunction_leads first.sound modifiers name params body scope).bind fun f m₂ second is => ?_
  have held : (Value.function f).Held m₂.store := by
    rw [Value.Held, is.1]
    exact (first.trans second).grown.mem stands.here
  refine (leads_write second.sound slot held).bind fun _ m₃ third _ => ?_
  exact leads_pure third.sound (third.grown.held held)

theorem classDeclaration_leads (modifiers : Modifiers) (name : String)
    (fields functions classes : List Node) (stands : m.Stands scope) (may : own scope.table) :
    Leads own m (classDeclaration rec modifiers name fields functions classes scope)
      fun v s => v.Held s := by
  refine (leads_declare stands may name .blueprint).bind fun slot m₁ first _ => ?_
  refine (newClass_leads below modifiers name fields functions classes
    (first.stands stands.here)).bind fun c m₂ second held => ?_
  have held : (Value.blueprint c).Held m₂.store := held
  refine (leads_write second.sound slot held).bind fun _ m₃ third _ => ?_
  exact leads_pure third.sound (third.grown.held held)

theorem block_leads (body : Node) (stands : m.Stands scope) :
    Leads own m (block rec body scope) fun _ _ => True := by
  refine Leads.nested stands fun inner m' _ inside _ => ?_
  refine (below body inside fun _ => .inr rfl).bind fun _ _ later _ => ?_
  exact leads_pure later.sound trivial

theorem whileLoop_leads (budget : Nat) (test body : Node) (stands : m.Stands scope)
    (may : ¬ test.Quiet → own scope.table) :
    Leads own m (whileLoop rec budget test body scope) fun v s => v.Held s := by
  refine (leads_rounds stands.sound (fun m' follows => ?_) budget).bind
    fun _ _ later _ => leads_pure later.sound trivial
  refine (condition_leads below test (follows.stands stands.here) may).bind fun holds m'' later _ => ?_
  cases holds with
  | true =>
    refine (block_leads below body ((follows.trans later).stands stands.here)).bind ?_
    exact fun _ _ last _ => leads_pure last.sound trivial
  | false => exact leads_pure later.sound trivial

theorem doWhileLoop_leads (budget : Nat) (test body : Node) (stands : m.Stands scope)
    (may : ¬ test.Quiet → own scope.table) :
    Leads own m (doWhileLoop rec budget test body scope) fun v s => v.Held s := by
  refine (leads_rounds stands.sound (fun m' follows => ?_) budget).bind
    fun _ _ later _ => leads_pure later.sound trivial
  refine (block_leads below body (follows.stands stands.here)).bind fun _ m'' later _ => ?_
  exact condition_leads below test ((follows.trans later).stands stands.here) may

theorem forLoop_leads (budget : Nat) (declaration test round body : Node) (stands : m.Stands scope) :
    Leads own m (forLoop rec budget declaration test round body scope) fun v s => v.Held s := by
  refine Leads.nested stands fun loop m₁ _ inside _ => ?_
  refine (below declaration inside fun _ => .inr rfl).bind fun _ m₂ first _ => ?_
  refine (leads_rounds first.sound (fun m₃ follows => ?_) budget).bind
    fun _ _ later _ => leads_pure later.sound trivial
  have since := first.trans follows
  refine (condition_leads below test (since.stands inside.here) fun _ => .inr rfl).bind
    fun holds m₄ second _ => ?_
  cases holds with
  | true =>
    refine (block_leads below body ((since.trans second).stands inside.here)).bind
      fun _ m₅ third _ => ?_
    have since := (since.trans second).trans third
    refine (below round (since.stands inside.here) fun _ => .inr rfl).bind fun _ _ last _ => ?_
    exact leads_pure last.sound trivial
  | false => exact leads_pure second.sound trivial

theorem branch_leads (test body alternative : Node) (stands : m.Stands scope) :
    Leads own m (branch rec test body alternative scope) fun v s => v.Held s := by
  refine Leads.nested stands fun inner m₁ _ inside _ => ?_
  refine (condition_leads below test inside fun _ => .inr rfl).bind fun holds m₂ first _ => ?_
  have inside' := first.stands inside.here
  cases holds with
  | true => exact below body inside' fun _ => .inr rfl
  | false => exact below alternative inside' fun _ => .inr rfl

/-! ## All nodes -/

theorem rule_leads (policy : Policy) (budget : Nat) (node : Node) (stands : m.Stands scope)
    (may : ¬ node.Quiet → own scope.table) :
    Leads own m (rule policy rec budget node scope) fun v s => v.Held s := by
  cases node with
  | absent | null | integer | double | boolean => exact leads_pure stands.sound trivial
  | foreign => exact leads_fail stands.sound _
  | tree span children =>
    exact statements_leads below .null children stands (fun _ _ _ => may nofun) trivial
  | binary span op left right =>
    refine (binary_leads below policy op left right stands ?_ ?_).imp fun _ _ kept => kept.2
    · exact fun loud => may fun | .binary _ _ quiet _ => loud quiet
    · exact fun loud => may fun | .binary _ _ _ quiet => loud quiet
  | identifier span parent name =>
    exact identifier_leads below parent name stands fun loud =>
      may fun | .identifier _ _ quiet => loud quiet
  | usage span target =>
    refine (usage_leads below target stands fun loud => ?_).imp fun _ _ kept => kept.2
    exact may fun | .usage _ quiet => loud quiet
  | assignment span op target value =>
    refine (assignment_leads below op target value stands ?_ ?_).imp fun _ _ kept => kept.2
    · exact fun loud => may fun | .assignment _ _ quiet _ => loud quiet
    · exact fun loud => may fun | .assignment _ _ _ quiet => loud quiet
  | call span callee arguments =>
    refine (call_leads below policy callee arguments stands ?_ ?_).imp fun _ _ kept => kept.2
    · exact fun loud => may fun | .call _ quiet _ => loud quiet
    · exact fun node member loud => may fun | .call _ _ quiet => loud (quiet node member)
  | instantiation span blueprint arguments =>
    refine (instantiation_leads below blueprint arguments stands fun loud => ?_).imp fun _ _ kept => kept.2
    exact may fun | .instantiation _ _ quiet => loud quiet
  | variableDeclaration span modifiers name type initial =>
    exact variableDeclaration_leads below name type initial stands (may nofun)
  | whileLoop span test body =>
    exact whileLoop_leads below budget test body stands fun loud =>
      may fun | .whileLoop _ _ quiet => loud quiet
  | doWhileLoop span test body =>
    exact doWhileLoop_leads below budget test body stands fun loud =>
      may fun | .doWhileLoop _ _ quiet => loud quiet
  | forLoop span declaration test round body =>
    exact forLoop_leads below budget declaration test round body stands
  | branch span test body alternative => exact branch_leads below test body alternative stands
  | functionDeclaration span modifiers name params body =>
    exact functionDeclaration_leads modifiers name params body stands (may nofun)
  | classDeclaration span modifiers name fields functions classes =>
    exact classDeclaration_leads below modifiers name fields functions classes stands (may nofun)

end Rules

/-- Every evaluation keeps the store well-formed and adds variables to no old table but that of its
    scope. -/
theorem eval_leads (policy : Policy) (budget : Nat) : Recursion.Leads (eval policy budget) := by
  induction budget with
  | zero => exact fun _ _ _ _ stands _ => leads_throw stands.sound _
  | succ budget ih =>
    intro node scope m own stands may
    rw [eval]
    exact (rule_leads ih policy budget node stands may).blaming node.span

end Evaluator

end ClassScript
