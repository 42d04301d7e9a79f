import ClassScript.Proofs.Store.Code

/-! # The calls that a rule makes

All that a rule can do with the way to evaluate nodes that it is given is to ask: it hands over a node, a scope
and a machine, and goes on with the value and the machine that it gets back, or stops with the error.
`Asks p E Q r` says so of `r`, the outcome as a function of that way.  Every machine and every node that is handed
over has only code with the property `p`, what is yielded in the end has the property `Q`, and what the rule
stops for of its own accord has the property `E`.

Two things follow for all rules at once.  An error is either the rule's own or the error of a call that the rule
made (`Asks.origin`), and the error of a call that matters at all is the error of the rule (`Asks.passes`).
-/

namespace ClassScript

open EStateM (Result)

namespace Eval

def follow {α β : Type} (r : Result Stop Machine α) (k : α → Machine → Result Stop Machine β) :
    Result Stop Machine β :=
  match r with
  | .ok a m => k a m
  | .error stop m => .error stop m

@[simp] theorem follow_ok {α β : Type} (a : α) (m : Machine) (k : α → Machine → Result Stop Machine β) :
    follow (.ok a m) k = k a m := rfl

@[simp] theorem follow_error {α β : Type} (stop : Stop) (m : Machine)
    (k : α → Machine → Result Stop Machine β) : follow (.error stop m) k = .error stop m := rfl

theorem bind_eq_follow {α β : Type} (x : Eval α) (k : α → Eval β) (m : Machine) :
    (x >>= k) m = follow (x m) k := by
  rw [bind_apply]
  cases x m <;> rfl

/-- An outcome that leaves a machine with only such code, and a value of the kind if it is one. -/
def Leaves {α : Type} (p : Node → Prop) (Q : α → Prop) : Result Stop Machine α → Prop
  | .ok a m => m.store.Carries p ∧ Q a
  | .error _ m => m.store.Carries p

end Eval

/-- The stop is no failure, or a failure that is blamed on nothing yet or on one of the spans. -/
def Stop.Within (spans : Span → Prop) : Stop → Prop
  | .failure f => f.span = .none ∨ spans f.span
  | _ => True

namespace Node

def isTree : Node → Bool
  | .tree .. => true
  | _ => false

/-- The nodes right below a node that its rule can blame for a fault: those that a plain value is taken from,
    and the methods of a class. -/
def operands : Node → List Node
  | .binary _ _ left right => [left, right]
  | .identifier _ parent _ => [parent]
  | .assignment _ _ _ value => [value]
  | .call _ callee arguments => callee :: arguments
  | .instantiation _ blueprint _ => [blueprint]
  | .whileLoop _ test _ | .doWhileLoop _ test _ | .forLoop _ _ test _ _ | .branch _ test _ _ => [test]
  | .classDeclaration _ _ _ _ methods _ => methods
  | _ => []

theorem mem_parts_of_mem_operands {n o : Node} (operand : o ∈ n.operands) : o ∈ n.parts := by
  cases n <;> simp_all [operands, parts]

/-- What the rule of a node stops for of its own accord.  A sequence of statements has no faults of its own. -/
structure Raises (n : Node) (stop : Stop) : Prop where
  present : n.isAbsent = false
  single : n.isTree = false
  within : stop.Within fun span => ∃ o ∈ n.operands, o.span = span

end Node

namespace Evaluator

open Eval

variable {α β : Type} {p : Node → Prop} {E : Stop → Prop} {Q : α → Prop} {R : β → Prop}

/-! ## Asking -/

/-- The outcome depends on how nodes are evaluated only by the answers to some calls, one after another. -/
inductive Asks (p : Node → Prop) (E : Stop → Prop) (Q : α → Prop) :
    (Recursion → Result Stop Machine α) → Prop
  | ok {a : α} {m : Machine} : m.store.Carries p → Q a → Asks p E Q fun _ => .ok a m
  | error {stop : Stop} {m : Machine} : m.store.Carries p → E stop → Asks p E Q fun _ => .error stop m
  | ask {n : Node} {scope : Scope} {m : Machine} {k : Value → Machine → Recursion → Result Stop Machine α} :
      n.Throughout p → m.store.Carries p →
      (∀ v m', v.Carries p → m'.store.Carries p → Asks p E Q (k v m')) →
      Asks p E Q fun rec => follow (rec n scope m) fun v m' => k v m' rec

def Recursion.Keeps (p : Node → Prop) (rec : Recursion) : Prop :=
  ∀ n scope m, n.Throughout p → m.store.Carries p → Leaves p (fun v => v.Carries p) (rec n scope m)

open Classical in
/-- The way to evaluate nodes, but for one call, which ends as given. -/
noncomputable def Recursion.answering (rec : Recursion) (n : Node) (scope : Scope) (m : Machine)
    (answer : Result Stop Machine Value) : Recursion :=
  fun n' scope' m' => if (n', scope', m') = (n, scope, m) then answer else rec n' scope' m'

theorem answering_self (rec : Recursion) (n : Node) (scope : Scope) (m : Machine)
    (answer : Result Stop Machine Value) : rec.answering n scope m answer n scope m = answer :=
  if_pos rfl

theorem answering_of_ne {rec : Recursion} {n n' : Node} {scope scope' : Scope} {m m' : Machine}
    (other : (n', scope', m') ≠ (n, scope, m)) (answer : Result Stop Machine Value) :
    rec.answering n scope m answer n' scope' m' = rec n' scope' m' :=
  if_neg other

namespace Asks

variable {r : Recursion → Result Stop Machine α}

theorem mono {E' : Stop → Prop} {Q' : α → Prop} (asks : Asks p E Q r) (stops : ∀ stop, E stop → E' stop)
    (yields : ∀ a, Q a → Q' a) : Asks p E' Q' r := by
  induction asks with
  | ok carries holds => exact .ok carries (yields _ holds)
  | error carries raised => exact .error carries (stops _ raised)
  | ask code carries _ ih => exact .ask code carries ih

theorem follow {k : α → Machine → Recursion → Result Stop Machine β} (asks : Asks p E Q r)
    (rest : ∀ a m, m.store.Carries p → Q a → Asks p E R (k a m)) :
    Asks p E R fun rec => Eval.follow (r rec) fun a m => k a m rec := by
  induction asks with
  | ok carries holds => exact rest _ _ carries holds
  | error carries raised => exact .error carries raised
  | @ask n scope m next code carries _ ih =>
    -- What follows the answers of all calls follows the answer of the first one.
    have nested : (fun rec : Recursion =>
          Eval.follow (Eval.follow (rec n scope m) fun v m' => next v m' rec) fun a m => k a m rec)
        = fun rec => Eval.follow (rec n scope m) fun v m' =>
          Eval.follow (next v m' rec) fun a m => k a m rec := by
      funext rec
      cases rec n scope m <;> rfl
    rw [nested]
    exact .ask code carries ih

theorem leaves (asks : Asks p E Q r) {rec : Recursion} (keeps : rec.Keeps p) : Leaves p Q (r rec) := by
  induction asks with
  | ok carries holds => exact ⟨carries, holds⟩
  | error carries _ => exact carries
  | @ask n scope m _ code carries _ ih =>
    have answer := keeps n scope m code carries
    dsimp only
    cases ran : rec n scope m with
    | ok v m' =>
      rw [ran] at answer
      exact ih v m' answer.2 answer.1
    | error stop m' =>
      rw [ran] at answer
      exact answer

/-- If another answer to a call would make a difference, the call was made.  Then its error is passed on. -/
theorem passes (asks : Asks p E Q r) {rec : Recursion} (keeps : rec.Keeps p) {n : Node} {scope : Scope}
    {m : Machine} {answer : Result Stop Machine Value}
    (matters : r (rec.answering n scope m answer) ≠ r rec) :
    n.Throughout p ∧ m.store.Carries p ∧
      ∀ stop m', rec n scope m = .error stop m' → r rec = .error stop m' := by
  induction asks with
  | ok | error => exact absurd rfl matters
  | @ask n' scope' m' k code carries _ ih =>
    -- Either this is the call whose answer differs, or it is answered as before and the difference comes later.
    by_cases here : (n', scope', m') = (n, scope, m)
    · cases here
      refine ⟨code, carries, fun stop m' failed => ?_⟩
      dsimp only
      rw [failed, follow_error]
    · dsimp only at matters ⊢
      rw [answering_of_ne here] at matters
      have kept := keeps n' scope' m' code carries
      cases ran : rec n' scope' m' with
      | ok v m₁ =>
        rw [ran] at matters kept
        exact ih v m₁ kept.2 kept.1 matters
      | error stop m₁ =>
        rw [ran] at matters
        exact absurd rfl matters

/-- What a rule stops for is its own, if all calls that it made yielded values, or what a call stopped for that it
    made: had that call stopped otherwise, so would the rule. -/
theorem origin (asks : Asks p E Q r) {rec : Recursion} (keeps : rec.Keeps p) {stop : Stop} {left : Machine}
    (stopped : r rec = .error stop left) :
    (E stop ∧ ∀ n scope m answer, r (rec.answering n scope m answer) ≠ r rec →
      ∃ v m', rec n scope m = .ok v m') ∨
    ∃ n scope m, n.Throughout p ∧ m.store.Carries p ∧ rec n scope m = .error stop left ∧
      ∀ stop' m', r (rec.answering n scope m (.error stop' m')) = .error stop' m' := by
  induction asks with
  | ok => cases stopped
  | error _ raised =>
    cases stopped
    exact .inl ⟨raised, fun n scope m answer matters => absurd rfl matters⟩
  | @ask n scope m k code carries _ ih =>
    have kept := keeps n scope m code carries
    dsimp only at stopped ⊢
    cases ran : rec n scope m with
    | error stop₁ m₁ =>
      rw [ran] at stopped
      cases stopped
      refine .inr ⟨n, scope, m, code, carries, ran, fun stop' m' => ?_⟩
      rw [answering_self, follow_error]
    | ok v m₁ =>
      rw [ran] at stopped kept
      rcases ih v m₁ kept.2 kept.1 stopped with own | called
      · obtain ⟨raised, others⟩ := own
        refine .inl ⟨raised, fun n' scope' m' answer matters => ?_⟩
        by_cases here : (n, scope, m) = (n', scope', m')
        · cases here
          exact ⟨v, m₁, ran⟩
        · rw [answering_of_ne here, ran] at matters
          exact others n' scope' m' answer matters
      · obtain ⟨n', scope', m', code', carries', failed, otherwise⟩ := called
        -- The first call yielded a value, so it is not the one that failed.
        have other : (n, scope, m) ≠ (n', scope', m') := by
          intro same
          cases same
          cases ran.symm.trans failed
        refine .inr ⟨n', scope', m', code', carries', failed, fun stop' m'' => ?_⟩
        rw [answering_of_ne other, ran]
        exact otherwise stop' m''

end Asks

/-- The evaluation asks, from every machine with only such code. -/
def Asking (p : Node → Prop) (E : Stop → Prop) (x : Recursion → Eval α) (Q : α → Prop) : Prop :=
  ∀ m : Machine, m.store.Carries p → Asks p E Q fun rec => x rec m

/-! ## Steps -/

theorem Asking.mono {E' : Stop → Prop} {Q' : α → Prop} {x : Recursion → Eval α} (asking : Asking p E x Q)
    (stops : ∀ stop, E stop → E' stop) (yields : ∀ a, Q a → Q' a) : Asking p E' x Q' :=
  fun m carries => (asking m carries).mono stops yields

theorem Asking.bind {x : Recursion → Eval α} {k : α → Recursion → Eval β} (first : Asking p E x Q)
    (rest : ∀ a, Q a → Asking p E (k a) R) : Asking p E (fun rec => x rec >>= fun a => k a rec) R := by
  intro m carries
  simp only [bind_eq_follow]
  exact (first m carries).follow fun a m' carries' holds => rest a holds m' carries'

theorem asking_rec {n : Node} (code : n.Throughout p) (scope : Scope) :
    Asking p E (fun rec => rec n scope) fun v => v.Carries p := by
  intro m carries
  have alone : (fun rec : Recursion => rec n scope m)
      = fun rec => follow (rec n scope m) fun v m' => .ok v m' := by
    funext rec
    cases rec n scope m <;> rfl
  rw [alone]
  exact .ask code carries fun v m' kept carries' => .ok carries' kept

theorem asking_pure {a : α} (holds : Q a) : Asking p E (fun _ => pure a) Q :=
  fun _ carries => .ok carries holds

theorem asking_throw {stop : Stop} (raised : E stop) : Asking p E (fun _ => throw stop) Q :=
  fun _ carries => .error carries raised

theorem asking_get : Asking p E (fun _ => get) fun m => m.store.Carries p :=
  fun _ carries => .ok carries carries

theorem asking_write (slot : Slot) {v : Value} (code : v.Carries p) :
    Asking p E (fun _ => Eval.write slot v) fun _ => True :=
  fun _ carries => .ok (carries.write slot code) trivial

theorem asking_nested (scope : Scope) : Asking p E (fun _ => Eval.nested scope) fun _ => True :=
  fun _ carries => .ok (carries.grow _) trivial

theorem asking_stamp : Asking p E (fun _ => Eval.stamp) fun _ => True :=
  fun _ carries => .ok carries trivial

theorem asking_note (event : Event) : Asking p E (fun _ => Eval.note event) fun _ => True :=
  fun _ carries => .ok carries trivial

theorem asking_emit (policy : Policy) (text : String) :
    Asking p E (fun _ => Eval.emit policy text) fun _ => True := by
  intro m carries
  by_cases room : fits policy m text
  · simp only [emit, room, if_true]
    exact .ok carries trivial
  · simp only [emit, room]
    exact .ok carries trivial

theorem asking_rounds {round : Recursion → Eval Bool} (exhausted : E .exhausted)
    (one : Asking p E round fun _ => True) (budget : Nat) :
    Asking p E (fun rec => Eval.rounds budget (round rec)) fun _ => True := by
  induction budget with
  | zero => exact asking_throw exhausted
  | succ budget ih =>
    refine one.bind fun more _ => ?_
    cases more with
    | true => exact ih
    | false => exact asking_pure trivial

/-! ## Faults -/

section Faults

variable {spans : Span → Prop}

theorem asking_fail (fault : Fault) : Asking p (Stop.Within spans) (fun _ => Eval.fail fault) Q :=
  asking_throw (.inl rfl)

theorem asking_ofExcept {found : Except Fault α} (holds : ∀ a, found = .ok a → Q a) :
    Asking p (Stop.Within spans) (fun _ => Eval.ofExcept found) Q := by
  cases found with
  | ok a => exact asking_pure (holds a rfl)
  | error fault => exact asking_fail fault

theorem asking_query {q : Store → Except Fault α}
    (holds : ∀ s : Store, s.Carries p → ∀ a, q s = .ok a → Q a) :
    Asking p (Stop.Within spans) (fun _ => Eval.query q) Q :=
  fun m carries => asking_ofExcept (holds m.store carries) m carries

theorem asking_declare (scope : Scope) (name : String) (type : DeclaredType) :
    Asking p (Stop.Within spans) (fun _ => Eval.declare scope name type) fun slot => slot.Carries p := by
  intro m carries
  by_cases taken : (m.store.declared scope).has name
  · simp only [declare, taken, if_true]
    exact .error carries (.inl rfl)
  · simp only [declare, taken]
    exact .ok (carries.add scope.table name type) trivial

theorem asking_blaming_ofExcept {span : Span} (place : spans span) {found : Except Fault α}
    (holds : ∀ a, found = .ok a → Q a) :
    Asking p (Stop.Within spans) (fun _ => Eval.blaming span (Eval.ofExcept found)) Q := by
  cases found with
  | ok a => exact fun _ carries => .ok carries (holds a rfl)
  | error fault => exact fun _ carries => .error carries (.inr place)

theorem asking_blaming_query {span : Span} (place : spans span) {q : Store → Except Fault α}
    (holds : ∀ s : Store, s.Carries p → ∀ a, q s = .ok a → Q a) :
    Asking p (Stop.Within spans) (fun _ => Eval.blaming span (Eval.query q)) Q :=
  fun m carries => asking_blaming_ofExcept place (holds m.store carries) m carries

/-! ## Rules -/

theorem value_asking {node : Node} (code : node.Throughout p) (place : spans node.span) (scope : Scope) :
    Asking p (Stop.Within spans) (fun rec => value rec node scope) fun v => v.Carries p := by
  refine (asking_rec code scope).bind fun v carries => ?_
  exact asking_blaming_query place fun s carried x found => (carried.plain carries found).2

theorem values_asking {nodes : List Node} (code : ∀ n ∈ nodes, n.Throughout p)
    (places : ∀ n ∈ nodes, spans n.span) (scope : Scope) :
    Asking p (Stop.Within spans) (fun rec => values rec scope nodes) fun vs => ∀ v ∈ vs, v.Carries p := by
  induction nodes with
  | nil => exact asking_pure (List.forall_mem_nil _)
  | cons node rest ih =>
    obtain ⟨codeFirst, codeRest⟩ := List.forall_mem_cons.1 code
    obtain ⟨placeFirst, placeRest⟩ := List.forall_mem_cons.1 places
    refine (value_asking codeFirst placeFirst scope).bind fun v kept => ?_
    refine (ih codeRest placeRest).bind fun vs all => ?_
    exact asking_pure (List.forall_mem_cons.2 ⟨kept, all⟩)

theorem each_asking (visit : Recursion → Recursion) {nodes : List Node} {scope : Scope}
    (all : ∀ n ∈ nodes, Asking p E (fun rec => visit rec n scope) fun _ => True) :
    Asking p E (fun rec => each (visit rec) scope nodes) fun _ => True := by
  induction nodes with
  | nil => exact asking_pure trivial
  | cons node rest ih =>
    obtain ⟨first, others⟩ := List.forall_mem_cons.1 all
    exact first.bind fun _ _ => ih others

theorem condition_asking {node : Node} (code : node.Throughout p) (place : spans node.span)
    (scope : Scope) :
    Asking p (Stop.Within spans) (fun rec => condition rec node scope) fun _ => True := by
  cases missing : node.isAbsent with
  | true =>
    simp only [condition, missing, if_true]
    exact asking_pure trivial
  | false =>
    simp only [condition, missing]
    refine (value_asking code place scope).bind fun v _ => ?_
    exact asking_blaming_ofExcept place fun _ _ => trivial

theorem target_asking {node : Node} (code : node.Throughout p) (scope : Scope) :
    Asking p (Stop.Within spans) (fun rec => target rec node scope) fun slot => slot.Carries p := by
  cases node with
  | identifier span parent name =>
    refine (asking_rec code scope).bind fun v carries => ?_
    cases v with
    | slot slot => exact asking_pure carries
    | _ => exact asking_throw trivial
  | _ => exact asking_throw trivial

theorem statements_asking {nodes : List Node} (code : ∀ n ∈ nodes, n.Throughout p) (scope : Scope)
    {result : Value} (carries : result.Carries p) :
    Asking p E (fun rec => statements rec scope result nodes) fun v => v.Carries p := by
  induction nodes generalizing result with
  | nil => exact asking_pure carries
  | cons node rest ih =>
    obtain ⟨codeFirst, codeRest⟩ := List.forall_mem_cons.1 code
    exact (asking_rec codeFirst scope).bind fun v kept => ih codeRest kept

theorem binary_asking (policy : Policy) (op : BinaryOp) {left right : Node}
    (codeLeft : left.Throughout p) (codeRight : right.Throughout p) (placeLeft : spans left.span)
    (placeRight : spans right.span) (scope : Scope) :
    Asking p (Stop.Within spans) (fun rec => binary policy rec op left right scope)
      fun v => v.Carries p := by
  refine (value_asking codeLeft placeLeft scope).bind fun l kept => ?_
  have both : Asking p (Stop.Within spans)
      (fun rec => do let r ← value rec right scope; Eval.ofExcept (Operation.apply op l r))
      fun v => v.Carries p :=
    (value_asking codeRight placeRight scope).bind fun _ _ =>
      asking_ofExcept fun _ found => Operation.carries_of_apply found
  dsimp only
  split
  · cases l with
    | boolean b =>
      dsimp only
      split
      · exact asking_pure trivial
      · exact both
    | _ => exact (asking_fail (Q := fun _ => True) _).bind fun _ _ => both
  · exact both

theorem identifier_asking {parent : Node} (code : parent.Throughout p) (place : spans parent.span)
    (name : String) (scope : Scope) :
    Asking p (Stop.Within spans) (fun rec => identifier rec parent name scope) fun v => v.Carries p := by
  have slot {q : Store → Except Fault Slot} (holds : ∀ s slot, q s = .ok slot → slot.Carries p) :
      Asking p (Stop.Within spans) (fun _ => do return Value.slot (← Eval.query q)) fun v => v.Carries p :=
    (asking_query fun s _ => holds s).bind fun slot carries => asking_pure carries
  cases missing : parent.isAbsent with
  | true =>
    simp only [identifier, missing, if_true]
    exact slot fun _ _ found => Store.carries_of_lookup found
  | false =>
    simp only [identifier, missing]
    refine (value_asking code place scope).bind fun v kept => ?_
    cases v with
    | blueprint c => exact slot fun _ _ found => Store.carries_of_classMember found
    | object o => exact slot fun _ _ found => Store.carries_of_objectMember kept found
    | _ => exact asking_fail _

theorem usage_asking {node : Node} (code : node.Throughout p) (scope : Scope) :
    Asking p (Stop.Within spans) (fun rec => usage rec node scope) fun v => v.Carries p := by
  refine (target_asking code scope).bind fun slot carries => ?_
  exact asking_query fun s carried x found => (carried.read carries found).2

theorem assignment_asking (op : AssignOp) {variableNode operandNode : Node}
    (codeTarget : variableNode.Throughout p) (codeOperand : operandNode.Throughout p)
    (place : spans operandNode.span) (scope : Scope) :
    Asking p (Stop.Within spans) (fun rec => assignment rec op variableNode operandNode scope)
      fun v => v.Carries p := by
  refine (target_asking codeTarget scope).bind fun slot _ => ?_
  have store (v : Value) (carries : v.Carries p) : Asking p (Stop.Within spans)
      (fun _ => do Eval.write slot v; return v) fun v => v.Carries p :=
    (asking_write slot carries).bind fun _ _ => asking_pure carries
  cases op.arithmetic? with
  | none =>
    dsimp only
    split
    · exact store (.integer 1) trivial
    · exact (value_asking codeOperand place scope).bind fun operand kept => store operand kept
  | some arithmetic =>
    have combine (operand : Value) : Asking p (Stop.Within spans)
        (fun _ => do
          let result ← Eval.ofExcept (Operation.apply arithmetic (← Eval.query (·.read slot)) operand)
          Eval.write slot result
          return result) fun v => v.Carries p := by
      refine (asking_query (Q := fun _ => True) fun _ _ _ _ => trivial).bind fun current _ => ?_
      refine (asking_ofExcept (Q := fun v => v.Carries p) fun _ found => ?_).bind store
      exact Operation.carries_of_apply found
    dsimp only
    split
    · exact combine (.integer 1)
    · exact (value_asking codeOperand place scope).bind fun operand _ => combine operand

/-! ### Calls -/

theorem bindAll_asking (frame : Scope) {bindings : List (String × Value)}
    (code : ∀ binding ∈ bindings, binding.2.Carries p) :
    Asking p (Stop.Within spans) (fun _ => bindAll frame bindings) fun _ => True := by
  induction bindings with
  | nil => exact asking_pure trivial
  | cons binding rest ih =>
    obtain ⟨codeFirst, codeRest⟩ := List.forall_mem_cons.1 code
    refine (asking_declare frame binding.1 .dynamic).bind fun slot _ => ?_
    exact (asking_write slot codeFirst).bind fun _ _ => ih codeRest

theorem serve_asking (policy : Policy) {arguments : List Node} (code : ∀ n ∈ arguments, n.Throughout p)
    (scope : Scope) (host : Host) :
    Asking p (Stop.Within spans) (fun rec => serve policy rec arguments scope host) fun _ => True := by
  induction host with
  | returns => exact asking_pure trivial
  | fails message => exact asking_throw trivial
  | writes text next ih => exact (asking_emit policy text).bind fun wrote _ => ih wrote
  | evaluates argument next ih =>
    simp only [serve]
    cases given : arguments[argument]? with
    | none => exact ih none
    | some node =>
      have codeNode := code node (List.mem_of_getElem? given)
      exact (asking_rec codeNode scope).bind fun v _ => asking_get.bind fun m _ => ih _
  | looks next ih => exact asking_get.bind fun m _ => ih _

theorem callNative_asking (policy : Policy) (native : Native) {arguments : List Node}
    (code : ∀ n ∈ arguments, n.Throughout p) (places : ∀ n ∈ arguments, spans n.span) (scope : Scope) :
    Asking p (Stop.Within spans) (fun rec => callNative policy rec native arguments scope)
      fun _ => True := by
  cases native with
  | print ending =>
    refine (values_asking code places scope).bind fun found _ => ?_
    refine (asking_emit policy _).bind fun wrote _ => ?_
    cases wrote with
    | true => exact asking_pure trivial
    | false => exact asking_throw trivial
  | host act => exact serve_asking policy code scope _

theorem invoke_asking (policy : Policy) {f : FunctionValue} (codeBody : f.Carries p)
    {arguments : List Node} (code : ∀ n ∈ arguments, n.Throughout p)
    (places : ∀ n ∈ arguments, spans n.span) (scope : Scope) :
    Asking p (Stop.Within spans) (fun rec => invoke policy rec f arguments scope) fun _ => True := by
  refine (asking_note _).bind fun _ _ => ?_
  have enter : Asking p (Stop.Within spans)
      (fun rec => do
        let found ← values rec scope arguments
        let frame ← Eval.nested f.closure
        bindAll frame (f.params.zip found)
        let _ ← rec f.body frame) fun _ => True := by
    refine (values_asking code places scope).bind fun found kept => ?_
    refine (asking_nested f.closure).bind fun frame _ => ?_
    refine (bindAll_asking frame fun binding member => ?_).bind fun _ _ => ?_
    · exact kept _ (List.of_mem_zip member).2
    · exact (asking_rec codeBody frame).bind fun _ _ => asking_pure trivial
  cases f.native with
  | some native => exact callNative_asking policy native code places scope
  | none =>
    dsimp only
    split
    · -- A wrong number of arguments is a fault before any of them is evaluated.
      exact (asking_fail (Q := fun _ => True) _).bind fun _ _ => enter
    · exact enter

theorem call_asking (policy : Policy) {callee : Node} (codeCallee : callee.Throughout p)
    (place : spans callee.span) {arguments : List Node} (code : ∀ n ∈ arguments, n.Throughout p)
    (places : ∀ n ∈ arguments, spans n.span) (scope : Scope) :
    Asking p (Stop.Within spans) (fun rec => call policy rec callee arguments scope)
      fun v => v.Carries p := by
  refine (value_asking codeCallee place scope).bind fun v kept => ?_
  cases v with
  | function f =>
    exact (invoke_asking policy kept code places scope).bind fun _ _ => asking_pure trivial
  | _ => exact asking_fail _

/-! ### Classes and objects -/

theorem instantiate_asking {c : ClassValue} (code : c.Carries p) :
    Asking p E (fun rec => instantiate rec c) fun o => o.blueprint.Carries p := by
  refine (asking_nested c.members).bind fun scope _ => ?_
  refine (each_asking id fun n member => ?_).bind fun _ _ => asking_get.bind fun m _ => ?_
  · exact (asking_rec (code.fields n member) scope).mono (fun _ => id) fun _ _ => trivial
  · exact (asking_note _).bind fun _ _ => asking_pure code

theorem instantiation_asking {blueprint : Node} (code : blueprint.Throughout p)
    (place : spans blueprint.span) (arguments : List Node) (scope : Scope) :
    Asking p (Stop.Within spans) (fun rec => instantiation rec blueprint arguments scope)
      fun v => v.Carries p := by
  refine (value_asking code place scope).bind fun v kept => ?_
  cases v with
  | blueprint c =>
    have make : Asking p (Stop.Within spans) (fun rec => do return Value.object (← instantiate rec c))
        fun v => v.Carries p :=
      (instantiate_asking kept).bind fun _ carries => asking_pure carries
    dsimp only
    split
    · exact (asking_fail (Q := fun _ => True) _).bind fun _ _ => make
    · exact make
  | _ => exact asking_fail _

theorem newFunction_asking (modifiers : Modifiers) (name : String) (params : List String) {body : Node}
    (code : body.Throughout p) (closure : Scope) :
    Asking p E (fun _ => newFunction modifiers name params body closure) fun f => f.Carries p :=
  asking_stamp.bind fun _ _ => asking_pure code

theorem member_asking {node : Node} (code : node.Throughout p) (scope : Scope) :
    Asking p (Stop.Within spans) (fun rec => member rec node scope) fun _ => True := by
  cases node with
  | variableDeclaration | functionDeclaration | classDeclaration =>
    exact (asking_rec code scope).mono (fun _ => id) fun _ _ => trivial
  | _ => exact asking_throw trivial

theorem methods_asking (className : String) (members : Scope) {collected : List FunctionValue}
    (codeCollected : ∀ f ∈ collected, f.Carries p) {nodes : List Node}
    (code : ∀ n ∈ nodes, n.Throughout p) (places : ∀ n ∈ nodes, spans n.span) :
    Asking p (Stop.Within spans) (fun rec => methods rec className members collected nodes)
      fun fs => ∀ f ∈ fs, f.Carries p := by
  induction nodes generalizing collected with
  | nil => exact asking_pure codeCollected
  | cons node rest ih =>
    obtain ⟨codeFirst, codeRest⟩ := List.forall_mem_cons.1 code
    obtain ⟨placeFirst, placeRest⟩ := List.forall_mem_cons.1 places
    cases node with
    | functionDeclaration span modifiers name params body =>
      simp only [methods]
      split
      · exact (asking_rec codeFirst members).bind fun _ _ =>
          ih codeCollected codeRest placeRest
      · split
        · -- A name that two methods have is blamed on the second one.
          exact asking_throw (.inr placeFirst)
        · have codeBody : body.Throughout p := codeFirst.part (by simp [Node.parts])
          refine (newFunction_asking modifiers name params codeBody members).bind fun f carries => ?_
          refine ih (fun g member => ?_) codeRest placeRest
          rcases List.mem_append.1 member with old | new
          · exact codeCollected g old
          · rw [List.mem_singleton.1 new]
            exact carries
    | _ => exact asking_throw trivial

theorem newClass_asking (modifiers : Modifiers) (name : String) {fields functions classes : List Node}
    (codeFields : ∀ n ∈ fields, n.Throughout p) (codeFunctions : ∀ n ∈ functions, n.Throughout p)
    (codeClasses : ∀ n ∈ classes, n.Throughout p) (places : ∀ n ∈ functions, spans n.span)
    (scope : Scope) :
    Asking p (Stop.Within spans)
      (fun rec => newClass rec modifiers name fields functions classes scope) fun c => c.Carries p := by
  refine (asking_nested scope).bind fun members _ => ?_
  have all {nodes : List Node} (code : ∀ n ∈ nodes, n.Throughout p) :
      Asking p (Stop.Within spans) (fun rec => each (member rec) members nodes) fun _ => True :=
    each_asking member fun n here => member_asking (code n here) members
  refine (all codeClasses).bind fun _ _ => ?_
  refine (methods_asking name members (by simp) codeFunctions places).bind fun prototype carries => ?_
  refine (all fun n here => codeFields n (List.mem_filter.1 here).1).bind fun _ _ => ?_
  refine asking_get.bind fun m _ => (asking_note _).bind fun _ _ => ?_
  exact asking_pure ⟨carries, fun n here => codeFields n (List.mem_filter.1 here).1⟩

/-! ### Declarations and control flow -/

theorem variableDeclaration_asking (name : String) (type : DeclaredType) {initial : Node}
    (code : initial.Throughout p) (scope : Scope) :
    Asking p (Stop.Within spans) (fun rec => variableDeclaration rec name type initial scope)
      fun v => v.Carries p :=
  (asking_declare scope name type).bind fun _ _ => asking_rec code scope

theorem functionDeclaration_asking (modifiers : Modifiers) (name : String) (params : List String)
    {body : Node} (code : body.Throughout p) (scope : Scope) :
    Asking p (Stop.Within spans) (fun _ => functionDeclaration modifiers name params body scope)
      fun v => v.Carries p := by
  refine (asking_declare scope name .function).bind fun slot _ => ?_
  refine (newFunction_asking modifiers name params code scope).bind fun f carries => ?_
  exact (asking_write slot (v := .function f) carries).bind fun _ _ => asking_pure carries

theorem classDeclaration_asking (modifiers : Modifiers) (name : String)
    {fields functions classes : List Node} (codeFields : ∀ n ∈ fields, n.Throughout p)
    (codeFunctions : ∀ n ∈ functions, n.Throughout p) (codeClasses : ∀ n ∈ classes, n.Throughout p)
    (places : ∀ n ∈ functions, spans n.span) (scope : Scope) :
    Asking p (Stop.Within spans)
      (fun rec => classDeclaration rec modifiers name fields functions classes scope)
      fun v => v.Carries p := by
  refine (asking_declare scope name .blueprint).bind fun slot _ => ?_
  refine (newClass_asking modifiers name codeFields codeFunctions codeClasses places scope).bind
    fun c carries => ?_
  exact (asking_write slot (v := .blueprint c) carries).bind fun _ _ => asking_pure carries

theorem block_asking {body : Node} (code : body.Throughout p) (scope : Scope) :
    Asking p E (fun rec => block rec body scope) fun _ => True := by
  refine (asking_nested scope).bind fun inner _ => ?_
  exact (asking_rec code inner).bind fun _ _ => asking_pure trivial

theorem whileLoop_asking (budget : Nat) {test body : Node} (codeTest : test.Throughout p)
    (codeBody : body.Throughout p) (place : spans test.span) (scope : Scope) :
    Asking p (Stop.Within spans) (fun rec => whileLoop rec budget test body scope)
      fun v => v.Carries p := by
  refine (asking_rounds trivial ?_ budget).bind fun _ _ => asking_pure trivial
  refine (condition_asking codeTest place scope).bind fun holds _ => ?_
  cases holds with
  | true => exact (block_asking codeBody scope).bind fun _ _ => asking_pure trivial
  | false => exact asking_pure trivial

theorem doWhileLoop_asking (budget : Nat) {test body : Node} (codeTest : test.Throughout p)
    (codeBody : body.Throughout p) (place : spans test.span) (scope : Scope) :
    Asking p (Stop.Within spans) (fun rec => doWhileLoop rec budget test body scope)
      fun v => v.Carries p := by
  refine (asking_rounds trivial ?_ budget).bind fun _ _ => asking_pure trivial
  exact (block_asking codeBody scope).bind fun _ _ => condition_asking codeTest place scope

theorem forLoop_asking (budget : Nat) {declaration test round body : Node}
    (codeFirst : declaration.Throughout p) (codeTest : test.Throughout p)
    (codeRound : round.Throughout p) (codeBody : body.Throughout p) (place : spans test.span)
    (scope : Scope) :
    Asking p (Stop.Within spans) (fun rec => forLoop rec budget declaration test round body scope)
      fun v => v.Carries p := by
  refine (asking_nested scope).bind fun loop _ => (asking_rec codeFirst loop).bind fun _ _ => ?_
  refine (asking_rounds trivial ?_ budget).bind fun _ _ => asking_pure trivial
  refine (condition_asking codeTest place loop).bind fun holds _ => ?_
  cases holds with
  | true =>
    refine (block_asking codeBody loop).bind fun _ _ => ?_
    exact (asking_rec codeRound loop).bind fun _ _ => asking_pure trivial
  | false => exact asking_pure trivial

theorem branch_asking {test body alternative : Node} (codeTest : test.Throughout p)
    (codeBody : body.Throughout p) (codeElse : alternative.Throughout p) (place : spans test.span)
    (scope : Scope) :
    Asking p (Stop.Within spans) (fun rec => branch rec test body alternative scope)
      fun v => v.Carries p := by
  refine (asking_nested scope).bind fun inner _ => ?_
  refine (condition_asking codeTest place inner).bind fun holds _ => ?_
  cases holds with
  | true => exact asking_rec codeBody inner
  | false => exact asking_rec codeElse inner

end Faults

/-- Every rule does nothing but ask, and stops of its own accord only for what it can be blamed for. -/
theorem rule_asking (policy : Policy) (budget : Nat) {node : Node} (code : node.Throughout p)
    (scope : Scope) :
    Asking p node.Raises (fun rec => rule policy rec budget node scope) fun v => v.Carries p := by
  have part {n : Node} (here : n ∈ node.parts) : n.Throughout p := code.part here
  -- What a rule with operands raises of its own accord is blamed on one of them.
  have raises {x : Recursion → Eval Value} (present : node.isAbsent = false)
      (single : node.isTree = false)
      (asking : Asking p (Stop.Within fun span => ∃ o ∈ node.operands, o.span = span) x
        fun v => v.Carries p) : Asking p node.Raises x fun v => v.Carries p :=
    asking.mono (fun _ within => ⟨present, single, within⟩) fun _ => id
  have blamed {o : Node} (operand : o ∈ node.operands) : ∃ o' ∈ node.operands, o'.span = o.span :=
    ⟨o, operand, rfl⟩
  cases node with
  | absent | null | integer | double | boolean => exact asking_pure trivial
  | foreign => exact raises rfl rfl (asking_fail _)
  | tree span children => exact statements_asking (fun n here => part here) scope trivial
  | binary span op left right =>
    exact raises rfl rfl (binary_asking policy op (part (by simp [Node.parts]))
      (part (by simp [Node.parts])) (blamed (by simp [Node.operands])) (blamed (by simp [Node.operands]))
      scope)
  | identifier span parent name =>
    exact raises rfl rfl (identifier_asking (part (by simp [Node.parts]))
      (blamed (by simp [Node.operands])) name scope)
  | usage span target => exact raises rfl rfl (usage_asking (part (by simp [Node.parts])) scope)
  | assignment span op target value =>
    exact raises rfl rfl (assignment_asking op (part (by simp [Node.parts]))
      (part (by simp [Node.parts])) (blamed (by simp [Node.operands])) scope)
  | call span callee arguments =>
    exact raises rfl rfl (call_asking policy (part (by simp [Node.parts]))
      (blamed (by simp [Node.operands])) (fun n here => part (by simp [Node.parts, here]))
      (fun n here => blamed (by simp [Node.operands, here])) scope)
  | instantiation span blueprint arguments =>
    exact raises rfl rfl (instantiation_asking (part (by simp [Node.parts]))
      (blamed (by simp [Node.operands])) arguments scope)
  | variableDeclaration span modifiers name type initial =>
    exact raises rfl rfl (variableDeclaration_asking name type (part (by simp [Node.parts])) scope)
  | whileLoop span test body =>
    exact raises rfl rfl (whileLoop_asking budget (part (by simp [Node.parts]))
      (part (by simp [Node.parts])) (blamed (by simp [Node.operands])) scope)
  | doWhileLoop span test body =>
    exact raises rfl rfl (doWhileLoop_asking budget (part (by simp [Node.parts]))
      (part (by simp [Node.parts])) (blamed (by simp [Node.operands])) scope)
  | forLoop span declaration test round body =>
    exact raises rfl rfl (forLoop_asking budget (part (by simp [Node.parts]))
      (part (by simp [Node.parts])) (part (by simp [Node.parts])) (part (by simp [Node.parts]))
      (blamed (by simp [Node.operands])) scope)
  | branch span test body alternative =>
    exact raises rfl rfl (branch_asking (part (by simp [Node.parts])) (part (by simp [Node.parts]))
      (part (by simp [Node.parts])) (blamed (by simp [Node.operands])) scope)
  | functionDeclaration span modifiers name params body =>
    exact raises rfl rfl (functionDeclaration_asking modifiers name params (part (by simp [Node.parts]))
      scope)
  | classDeclaration span modifiers name fields functions classes =>
    exact raises rfl rfl (classDeclaration_asking modifiers name
      (fun n (here : n ∈ fields) => part (by simp [Node.parts, here]))
      (fun n (here : n ∈ functions) => part (by simp [Node.parts, here]))
      (fun n (here : n ∈ classes) => part (by simp [Node.parts, here])) (fun n here => blamed here) scope)

theorem eval_keeps (policy : Policy) (budget : Nat) : Recursion.Keeps p (eval policy budget) := by
  induction budget with
  | zero => exact fun _ _ _ _ carries => carries
  | succ budget ih =>
    intro n scope m code carries
    have left := (rule_asking policy budget code scope m carries).leaves ih
    dsimp only at left
    rw [eval, blaming]
    cases ran : rule policy (eval policy budget) budget n scope m with
    | ok v m' =>
      rw [ran] at left
      exact left
    | error stop m' =>
      rw [ran] at left
      exact left

end Evaluator

end ClassScript
