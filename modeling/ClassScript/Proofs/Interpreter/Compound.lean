import ClassScript.Proofs.Evaluator.Budget
import ClassScript.Proofs.Interpreter.Assignment

/-! # Assignments with an operator

An assignment with an operator finds its variable once, evaluates its operand, and reads the variable only then.
Written out, the variable is found twice and read before the operand is evaluated.  If the operand leaves the variable
as it is, the two end alike (`compound_written_out`): with the same value and the same machine, or with the same fault.
The machines may differ in the latter case, for a variable without a value stops the written-out form before its
operand is evaluated.
-/

namespace ClassScript

open EStateM (Result)

/-! ## Expressions -/

def Node.isExpression : Node → Bool
  | .integer .. | .double .. | .boolean .. | .null .. | .binary .. | .usage .. | .assignment .. | .call ..
  | .instantiation .. => true
  | _ => false

namespace Evaluator

open Eval

/-- What an expression yields is no variable. -/
theorem eval_expression_leads (policy : Policy) (budget : Nat) {node : Node} (expression : node.isExpression = true)
    {scope : Scope} {m : Machine} (stands : m.Stands scope) :
    Leads (fun _ => True) m (eval policy budget node scope) fun v s => v.Kept s := by
  cases budget with
  | zero => exact leads_throw stands.sound _
  | succ budget =>
    have below := eval_leads policy budget
    refine Leads.blaming ?_ node.span
    cases node with
    | integer | double | boolean | null => exact leads_pure stands.sound ⟨rfl, trivial⟩
    | binary span op left right =>
      exact binary_leads below policy op left right stands (fun _ => trivial) fun _ => trivial
    | usage span target => exact usage_leads below target stands fun _ => trivial
    | assignment span op target value =>
      exact assignment_leads below op target value stands (fun _ => trivial) fun _ => trivial
    | call span callee arguments =>
      exact call_leads below policy callee arguments stands (fun _ => trivial) fun _ _ _ => trivial
    | instantiation span blueprint arguments =>
      exact instantiation_leads below blueprint arguments stands fun _ => trivial
    | _ => cases expression

theorem value_of_expression {policy : Policy} {budget : Nat} {node : Node} (expression : node.isExpression = true)
    {scope : Scope} {m m' : Machine} (stands : m.Stands scope) {v : Value}
    (yields : eval policy budget node scope m = .ok v m') : value (eval policy budget) node scope m = .ok v m' := by
  have leads := eval_expression_leads policy budget expression stands
  rw [Leads, yields] at leads
  exact value_eq_ok.2 ⟨v, yields, Store.plain_of_isPlain leads.2.1⟩

end Evaluator

/-! ## Faults -/

namespace Eval

variable {α β : Type} {m m₁ : Machine} {fault : Fault}

/-- The outcome is a runtime error for the reason, whatever it is blamed on. -/
def Fails (fault : Fault) (r : Result Stop Machine α) : Prop :=
  ∃ span m, r = .error (.failure ⟨fault, span⟩) m

theorem fails_query {q : Store → Except Fault α} (fails : q m.store = .error fault) : Fails fault (query q m) := by
  rw [query, fails]
  exact ⟨_, _, rfl⟩

theorem Fails.blaming {x : Eval α} (fails : Fails fault (x m)) (span : Span) :
    Fails fault (Eval.blaming span x m) := by
  obtain ⟨own, m', is⟩ := fails
  have blamed : ∃ span', (Failure.mk fault own).blame span = ⟨fault, span'⟩ := by
    rw [Failure.blame]
    split
    · exact ⟨span, rfl⟩
    · exact ⟨own, rfl⟩
  obtain ⟨span', same⟩ := blamed
  refine ⟨span', m', ?_⟩
  rw [Eval.blaming, is]
  exact congrArg (fun f => Result.error (Stop.failure f) m') same

theorem Fails.bind {x : Eval α} (fails : Fails fault (x m)) (k : α → Eval β) : Fails fault ((x >>= k) m) := by
  obtain ⟨span, m', is⟩ := fails
  exact ⟨span, m', by rw [bind_apply, is]⟩

theorem bind_of_ok {x : Eval α} {a : α} (ran : x m = .ok a m₁) (k : α → Eval β) : (x >>= k) m = k a m₁ := by
  rw [bind_apply, ran]

/-- The two evaluations end alike: with the same value and the same machine, or both with a runtime error for the same
    reason. -/
def EndAlike (x y : Nat → Eval α) (m : Machine) : Prop :=
  (∃ v m', Ends x m (.ok v m') ∧ Ends y m (.ok v m')) ∨
  ∃ f g m₁ m₂, Ends x m (.error (.failure f) m₁) ∧ Ends y m (.error (.failure g) m₂) ∧ f.fault = g.fault

end Eval

namespace Evaluator

open Eval Store

variable {policy : Policy} {budget : Nat} {scope : Scope} {m m₁ : Machine} {name : String}

theorem endAlike_of_ok (budget : Nat) (sound : m.Sound) {n n' : Node} {v : Value} {m' : Machine}
    (first : eval policy budget n scope m = .ok v m') (second : eval policy budget n' scope m = .ok v m') :
    EndAlike (eval policy · n scope) (eval policy · n' scope) m := by
  refine .inl ⟨v, m', ?_, ?_⟩
  · exact first ▸ ends_of_eval sound (first ▸ settled_ok v m')
  · exact second ▸ ends_of_eval sound (second ▸ settled_ok v m')

theorem endAlike_of_fails (budget : Nat) (sound : m.Sound) {n n' : Node} {fault : Fault}
    (first : Fails fault (eval policy budget n scope m)) (second : Fails fault (eval policy budget n' scope m)) :
    EndAlike (eval policy · n scope) (eval policy · n' scope) m := by
  have settled (f : Failure) (m' : Machine) : Settled (.error (.failure f) m' : Result Stop Machine Value) := by
    rintro _ ⟨⟩
  obtain ⟨span, m₁, first⟩ := first
  obtain ⟨span', m₂, second⟩ := second
  refine .inr ⟨⟨fault, span⟩, ⟨fault, span'⟩, m₁, m₂, ?_, ?_, rfl⟩
  · exact first ▸ ends_of_eval sound (first ▸ settled _ m₁)
  · exact second ▸ ends_of_eval sound (second ▸ settled _ m₂)

/-! ## Finding and reading the variable -/

theorem target_name {slot : Slot} (found : m.store.lookup scope name = .ok slot) (place : Span) :
    target (eval policy (budget + 1)) (.identifier place .absent name) scope m = .ok slot m :=
  target_eq_ok.2 ⟨rfl, eval_name_eq_ok.2 ⟨slot, found, rfl, rfl⟩⟩

theorem target_undeclared {fault : Fault} (missing : m.store.lookup scope name = .error fault) (place : Span) :
    Fails fault (target (eval policy (budget + 1)) (.identifier place .absent name) scope m) := by
  have asked : Fails fault (eval policy (budget + 1) (.identifier place .absent name) scope m) := by
    rw [eval, rule, identifier]
    exact ((fails_query missing).bind _).blaming place
  exact asked.bind _

theorem value_usage {slot : Slot} (found : m.store.lookup scope name = .ok slot) {v : Value}
    (read : m.store.read slot = .ok v) (plain : v.isPlain = true) (span place : Span) :
    value (eval policy (budget + 2)) (.usage span (.identifier place .absent name)) scope m = .ok v m :=
  value_eq_ok.2 ⟨v, (eval_usage_eq_ok rfl).2 ⟨slot, eval_name_eq_ok.2 ⟨slot, found, rfl, rfl⟩, read⟩,
    plain_of_isPlain plain⟩

theorem value_unread {slot : Slot} (found : m.store.lookup scope name = .ok slot) {fault : Fault}
    (unread : m.store.read slot = .error fault) (span place : Span) :
    Fails fault (value (eval policy (budget + 2)) (.usage span (.identifier place .absent name)) scope m) := by
  have asked : Fails fault (eval policy (budget + 2) (.usage span (.identifier place .absent name)) scope m) := by
    rw [eval, rule, usage]
    refine Fails.blaming ?_ span
    rw [bind_of_ok (target_name found place)]
    exact fails_query unread
  exact asked.bind _

/-! ## Both forms -/

section Forms

variable {op : AssignOp} {operand : Node} {slot : Slot} {v : Value} {fault : Fault}

theorem assignment_undeclared (missing : m.store.lookup scope name = .error fault) (whole place : Span) :
    Fails fault (eval policy (budget + 2) (.assignment whole op (.identifier place .absent name) operand) scope m) := by
  rw [eval, rule, assignment_eq]
  exact ((target_undeclared missing place).bind _).blaming whole

theorem assignment_operand_fails (found : m.store.lookup scope name = .ok slot)
    (fails : Fails fault (operandOf (eval policy (budget + 1)) operand scope m)) (whole place : Span) :
    Fails fault (eval policy (budget + 2) (.assignment whole op (.identifier place .absent name) operand) scope m) := by
  rw [eval, rule, assignment_eq]
  refine Fails.blaming ?_ whole
  rw [bind_of_ok (target_name found place)]
  exact fails.bind _

theorem assignment_combined_fails (found : m.store.lookup scope name = .ok slot)
    (yields : operandOf (eval policy (budget + 1)) operand scope m = .ok v m₁)
    (fails : Fails fault (combined op slot v m₁)) (whole place : Span) :
    Fails fault (eval policy (budget + 2) (.assignment whole op (.identifier place .absent name) operand) scope m) := by
  rw [eval, rule, assignment_eq]
  refine Fails.blaming ?_ whole
  rw [bind_of_ok (target_name found place), bind_of_ok yields]
  exact fails.bind _

theorem assignment_of_combined (found : m.store.lookup scope name = .ok slot)
    (yields : operandOf (eval policy (budget + 1)) operand scope m = .ok v m₁) {w : Value}
    (combines : combined op slot v m₁ = .ok w m₁) (whole place : Span) :
    eval policy (budget + 2) (.assignment whole op (.identifier place .absent name) operand) scope m =
      .ok w (m₁.mapStore (·.write slot w)) := by
  rw [eval, blaming_eq_ok, rule, assignment_eq, bind_of_ok (target_name found place), bind_of_ok yields,
    bind_of_ok combines]
  rfl

end Forms

section Arithmetic

variable {op : AssignOp} {arithmetic : BinaryOp} (compound : op.arithmetic? = some arithmetic)

include compound

/-- An operator that assignments apply evaluates both of its operands, whatever the policy is. -/
theorem eval_arithmetic (left right : Node) (sum : Span) :
    eval policy (budget + 1) (.binary sum arithmetic left right) scope =
      blaming sum (do
        let l ← value (eval policy budget) left scope
        let r ← value (eval policy budget) right scope
        Eval.ofExcept (Operation.apply arithmetic l r)) := by
  have eager : (policy.shortCircuit && (decide (arithmetic = .and) || decide (arithmetic = .or))) = false := by
    cases op <;> cases compound <;> simp
  rw [eval, rule, binary]
  simp only [eager, Bool.false_eq_true, ↓reduceIte]
  rfl

/-- The old value of the variable and the operand, combined. -/
theorem combined_eq (slot : Slot) (v : Value) (m₁ : Machine) :
    combined op slot v m₁ =
      Eval.ofExcept (m₁.store.read slot >>= fun current => Operation.apply arithmetic current v) m₁ := by
  rw [combined, compound]
  show (query (·.read slot) >>= _) m₁ = _
  rw [bind_apply, query]
  cases m₁.store.read slot <;> rfl

section Written

variable {operand : Node} {slot : Slot} {v : Value} (sound : m.Sound)
  (found : m.store.lookup scope name = .ok slot)
  (yields : value (eval policy (budget + 2)) operand scope m = .ok v m₁)

include sound found yields

/-- Written out, the old value is read before the operand is evaluated. -/
theorem eval_written_eq_ok {w : Value}
    (result : (m.store.read slot >>= fun current => Operation.apply arithmetic current v) = .ok w)
    (sum read place : Span) :
    eval policy (budget + 3)
      (.binary sum arithmetic (.usage read (.identifier place .absent name)) operand) scope m = .ok w m₁ := by
  cases isRead : m.store.read slot with
  | error fault =>
    rw [isRead] at result
    cases result
  | ok current =>
    rw [isRead] at result
    have plain := (Store.WellFormed.read_kept sound (held_of_lookup found) isRead).1
    rw [eval_arithmetic compound, blaming_eq_ok, bind_of_ok (value_usage found isRead plain read place),
      bind_of_ok yields, show Operation.apply arithmetic current v = .ok w from result]
    rfl

theorem eval_written_fails {fault : Fault}
    (result : (m.store.read slot >>= fun current => Operation.apply arithmetic current v) = .error fault)
    (sum read place : Span) :
    Fails fault (eval policy (budget + 3)
      (.binary sum arithmetic (.usage read (.identifier place .absent name)) operand) scope m) := by
  rw [eval_arithmetic compound]
  refine Fails.blaming ?_ sum
  cases isRead : m.store.read slot with
  | error fault' =>
    rw [isRead] at result
    cases result
    exact (value_unread found isRead read place).bind _
  | ok current =>
    rw [isRead] at result
    have plain := (Store.WellFormed.read_kept sound (held_of_lookup found) isRead).1
    rw [bind_of_ok (value_usage found isRead plain read place), bind_of_ok yields,
      show Operation.apply arithmetic current v = .error fault from result]
    exact ⟨_, _, rfl⟩

end Written

/-- The two forms end alike if their operands yield the same and leave the variable as it is. -/
theorem endAlike_of_operands (stands : m.Stands scope) {operand operand' : Node} {v : Value}
    (yields : operandOf (eval policy (budget + 3)) operand scope m = .ok v m₁)
    (yields' : value (eval policy (budget + 2)) operand' scope m = .ok v m₁)
    (same : ∀ slot, m.store.lookup scope name = .ok slot → m₁.store.read slot = m.store.read slot)
    (whole place whole' place' sum read place'' : Span) :
    EndAlike (eval policy · (.assignment whole op (.identifier place .absent name) operand) scope)
      (eval policy · (.assignment whole' .assign (.identifier place' .absent name)
        (.binary sum arithmetic (.usage read (.identifier place'' .absent name)) operand')) scope) m := by
  have sound := stands.sound
  cases found : m.store.lookup scope name with
  | error fault =>
    exact endAlike_of_fails (budget + 4) sound (assignment_undeclared found whole place)
      (assignment_undeclared found whole' place')
  | ok slot =>
    have combines := combined_eq compound slot v m₁
    rw [same slot found] at combines
    -- Both forms now combine the same two values, and share the fault or the result.
    cases result : m.store.read slot >>= fun current => Operation.apply arithmetic current v with
    | error fault =>
      rw [result] at combines
      have written := eval_written_fails compound sound found yields' result sum read place''
      exact endAlike_of_fails (budget + 4) sound
        (assignment_combined_fails found yields ⟨_, _, combines⟩ whole place)
        (assignment_operand_fails found (written.bind _) whole' place')
    | ok w =>
      rw [result] at combines
      have written := eval_written_eq_ok compound sound found yields' result sum read place''
      have assigned : operandOf (eval policy (budget + 3)) (.binary sum arithmetic
          (.usage read (.identifier place'' .absent name)) operand') scope m = .ok w m₁ :=
        value_of_expression rfl stands written
      exact endAlike_of_ok (budget + 4) sound (assignment_of_combined found yields combines whole place)
        (assignment_of_combined found assigned rfl whole' place')

end Arithmetic

end Evaluator

namespace Interpreter

open Eval Evaluator

/-- A machine that a host can get to, a scope of it, and a name.  An assignment with an operator and what it is written
    out as end alike, for every expression that yields a value and leaves the variable as it is; and so do the steps,
    which have no operand, and what they are written out as.  Where the parts stand makes no difference. -/
theorem compound_written_out (policy : Policy) {extra : List Builtin} {m : Machine} (reachable : Reachable extra m)
    {scope : Scope}
    (here : scope ∈ m.store.scopes) (name : String) (whole place whole' place' sum read place'' one : Span) :
    (∀ ops ∈ [(AssignOp.add, BinaryOp.add), (.sub, .sub), (.mul, .mul), (.div, .div), (.pow, .pow)],
      ∀ e : Node, e.isExpression = true → ∀ v m₁, Ends (eval policy · e scope) m (.ok v m₁) →
      (∀ slot, m.store.lookup scope name = .ok slot → m₁.store.read slot = m.store.read slot) →
      EndAlike (eval policy · (.assignment whole ops.1 (.identifier place .absent name) e) scope)
        (eval policy · (.assignment whole' .assign (.identifier place' .absent name)
          (.binary sum ops.2 (.usage read (.identifier place'' .absent name)) e)) scope) m) ∧
    ∀ ops ∈ [(AssignOp.increase, BinaryOp.add), (.decrease, .sub)],
      EndAlike (eval policy · (.assignment whole ops.1 (.identifier place .absent name) .absent) scope)
        (eval policy · (.assignment whole' .assign (.identifier place' .absent name)
          (.binary sum ops.2 (.usage read (.identifier place'' .absent name)) (.integer one 1))) scope) m := by
  have stands : m.Stands scope := ⟨reachable.sound, here⟩
  constructor
  · intro ops member e expression v m₁ ends same
    have compound : ops.1.arithmetic? = some ops.2 := by
      revert ops
      decide
    obtain ⟨-, least, reached⟩ := ends
    have yields (budget : Nat) (enough : least ≤ budget) : value (eval policy budget) e scope m = .ok v m₁ :=
      value_of_expression expression stands (reached budget enough)
    have present : e.isAbsent = false := by
      cases e with
      | absent => cases expression
      | _ => rfl
    have operand : operandOf (eval policy (least + 3)) e scope m = .ok v m₁ := by
      rw [operandOf, present]
      exact yields (least + 3) (Nat.le_add_right least 3)
    -- Written out, the operand is one step deeper.
    exact endAlike_of_operands compound stands operand (yields (least + 2) (Nat.le_add_right least 2)) same
      whole place whole' place' sum read place''
  · intro ops member
    have compound : ops.1.arithmetic? = some ops.2 := by
      revert ops
      decide
    have operand : operandOf (eval policy (0 + 3)) .absent scope m = .ok (.integer 1) m := rfl
    have operand' : value (eval policy (0 + 2)) (.integer one 1) scope m = .ok (.integer 1) m := rfl
    exact endAlike_of_operands compound stands operand operand' (fun _ _ => rfl)
      whole place whole' place' sum read place''

def ticketText : List UInt8 := "int price = 3\nint count = 4".toUTF8.data.toList

def countStep : Node := .assignment .none .increase (.identifier .none .absent "count") .absent

theorem compound_written_out_countStep :
    let m := (evaluate {} (parseSource ticketText).1 (start [])).2
    let price : Node := .identifier .none .absent "price"
    Reachable [] m ∧ m.root ∈ m.store.scopes ∧ countStep.isExpression = true ∧
      (∃ v m₁, Ends (eval {} · countStep m.root) m (.ok v m₁) ∧
        ∀ slot, m.store.lookup m.root "price" = .ok slot → m₁.store.read slot = m.store.read slot) ∧
      EndAlike (eval {} · (.assignment .none .mul price countStep) m.root)
        (eval {} · (.assignment .none .assign price (.binary .none .mul (.usage .none price) countStep)) m.root) m ∧
      EndAlike (eval {} · (.assignment .none .decrease price .absent) m.root)
        (eval {} · (.assignment .none .assign price
          (.binary .none .sub (.usage .none price) (.integer .none 1))) m.root) m := by
  intro m price
  have reachable : Reachable [] m := Reachable.start.evaluate {} _
  have here : m.root ∈ m.store.scopes := reachable.sound.rooted.1
  obtain ⟨written, stepped⟩ :=
    compound_written_out {} reachable here "price" .none .none .none .none .none .none .none .none
  have operand : ∃ v m₁, Ends (eval {} · countStep m.root) m (.ok v m₁) ∧
      ∀ slot, m.store.lookup m.root "price" = .ok slot → m₁.store.read slot = m.store.read slot := by
    obtain ⟨v, done⟩ : ∃ v, eval {} (9 + 1) countStep m.root m = .ok v _ := exists_of_succeeds (by decide +kernel)
    refine ⟨v, _, done ▸ ends_of_eval reachable.sound (done ▸ settled_ok v _), fun slot found => ?_⟩
    -- The step assigns to another variable than the one that is read.
    obtain ⟨-, _, counted, names, -, is⟩ := exists_of_assignment reachable.sound here (.name _ _) done
    rw [is]
    cases names with
    | plain isCount =>
      obtain ⟨id, rfl⟩ := Store.stored_of_lookup found
      obtain ⟨id', rfl⟩ := Store.stored_of_lookup isCount
      have apart : Slot.stored id "price" ≠ .stored id' "count" := by simp
      exact Store.read_write_ne apart v
  obtain ⟨v, m₁, ends, same⟩ := operand
  exact ⟨reachable, here, rfl, ⟨v, m₁, ends, same⟩, written (.mul, .mul) (by decide) countStep rfl v m₁ ends same,
    stepped (.decrease, .sub) (by decide)⟩

end Interpreter

end ClassScript
