import ClassScript.Parser
import ClassScript.Proofs.Interpreter.Reachable

/-! # Reading what was assigned

A name, or a member of a chain of names, means a variable (`Store.Names`), and finding it reads the variables
of the chain.  An assignment finds its variable first and writes to it last, so in between the assigned
expression may rebind the chain; and the assignment itself rebinds it if it writes to a variable that the
chain goes through, as `o.self.self = 5` does.  If neither happens, the same variable is found afterwards, and
reading it yields the assigned value (`usage_after_assignment`).

There is one exception.  A function that an object has from its class is no variable of the object: it is bound to
the object when it is read, so nothing keeps what is assigned to it.
-/

namespace ClassScript

/-! ## Tables and stores -/

namespace Store

variable {root scope : Scope} {s s' : Store} {name : String} {slot : Slot}

/-- A name means the same variable in two stores in which the scope has the same names. -/
theorem resolveIn_congr {frames : List Frame}
    (same : ∀ frame ∈ frames, (s'.table frame.table).names = (s.table frame.table).names) :
    s'.resolveIn name frames = s.resolveIn name frames := by
  induction frames with
  | nil => rfl
  | cons frame rest ih =>
    obtain ⟨first, others⟩ := List.forall_mem_cons.1 same
    rw [resolveIn, resolveIn, Table.has_congr first, ih others]

theorem read_write_ne {other : Slot} (differs : other ≠ slot) (v : Value) :
    (s.write slot v).read other = s.read other := by
  have same : (s.write slot v).entry other = s.entry other := by
    cases slot with
    | method => rfl
    | stored id name =>
      cases other with
      | method => rfl
      | stored id' name' =>
        rw [write, entry, entry, get?_modifyTable_assign, if_neg]
        rintro ⟨rfl, rfl⟩
        exact differs rfl
  rw [read, read, same]

/-- What a variable is assigned, it holds. -/
theorem read_write_self {id : TableId} (held : (Slot.stored id name).Held s) {v : Value} (plain : v.isPlain = true) :
    (s.write (.stored id name) v).read (.stored id name) = .ok v := by
  obtain ⟨old, found⟩ := Option.isSome_iff_exists.1 held
  have stored : s.storable v = v := by
    cases v with
    | slot => cases plain
    | _ => rfl
  have entry : (s.write (.stored id name) v).entry (.stored id name) = { old with value := some v } := by
    rw [write, Store.entry, get?_modifyTable_assign, if_pos ⟨rfl, rfl⟩, found, stored]
    rfl
  rw [read, entry]

/-! A store that gets no new variables finds what it found. -/

section Extends

variable (grown : s.Extends (fun _ => False) s')

include grown

theorem Extends.names_eq {id : TableId} (bound : id < s.tables.size) : (s'.table id).names = (s.table id).names :=
  (grown.tables id bound).same not_false

theorem Extends.lookup (sound : s.WellFormed root) (here : scope ∈ s.scopes) (name : String) :
    s'.lookup scope name = s.lookup scope name := by
  have same : s'.resolve? scope name = s.resolve? scope name :=
    resolveIn_congr fun frame member => grown.names_eq (sound.frame_lt here frame member)
  rw [Store.lookup, Store.lookup, same]

theorem Extends.classMember (sound : s.WellFormed root) (sound' : s'.WellFormed root) {c : ClassValue}
    (held : c.Held s) (found : s.classMember c name = .ok slot) : s'.classMember c name = .ok slot := by
  rw [Store.classMember] at found
  split at found
  case h_2 => cases found
  case h_1 name' type value get =>
    cases found
    obtain ⟨member, named⟩ := Table.mem_of_get? get
    obtain ⟨v', member', named', -, stays⟩ := (grown.tables _ (sound.table_lt held.members)).stays _ member
    have get' : (s'.declared c.members).get? name = some v' := by
      rw [← named, ← named']
      exact Table.get?_of_mem (sound'.table_distinct _) member'
    obtain ⟨value', is⟩ := Option.isSome_iff_exists.1 (stays rfl)
    obtain ⟨name'', type', _⟩ := v'
    cases is
    rw [Store.classMember, get']

theorem Extends.objectMember (sound : s.WellFormed root) (sound' : s'.WellFormed root) {o : ObjectValue}
    (held : o.Held s) (found : s.objectMember o name = .ok slot) : s'.objectMember o name = .ok slot := by
  have same : (s'.declared o.scope).has name = (s.declared o.scope).has name :=
    Table.has_congr (grown.names_eq (sound.table_lt held.scope)) name
  rw [Store.objectMember] at found
  rw [Store.objectMember, same]
  by_cases field : (s.declared o.scope).has name = true
  · rw [if_pos field] at found ⊢
    exact found
  · rw [if_neg field] at found ⊢
    cases method : o.blueprint.method? name with
    | some f =>
      rw [method] at found
      exact found
    | none =>
      rw [method] at found
      exact grown.classMember sound sound' held.blueprint found

end Extends

def member (s : Store) (v : Value) (name : String) : Except Fault Slot :=
  match v with
  | .blueprint c => s.classMember c name
  | .object o => s.objectMember o name
  | _ => .error (.memberOf name v.kind)

theorem plain_of_isPlain {v : Value} (isPlain : v.isPlain = true) : s.plain v = .ok v := by
  cases v with
  | slot => cases isPlain
  | _ => rfl

theorem isPlain_of_member {v : Value} (found : s.member v name = .ok slot) : v.isPlain = true := by
  cases v with
  | slot => cases found
  | _ => rfl

theorem held_of_member {v : Value} (held : v.Held s) (found : s.member v name = .ok slot) : slot.Held s := by
  cases v with
  | blueprint => exact held_of_classMember found
  | object => exact held_of_objectMember held found
  | _ => cases found

theorem Extends.member (grown : s.Extends (fun _ => False) s') (sound : s.WellFormed root)
    (sound' : s'.WellFormed root) {v : Value} (held : v.Held s) (found : s.member v name = .ok slot) :
    s'.member v name = .ok slot := by
  cases v with
  | blueprint => exact grown.classMember sound sound' held found
  | object => exact grown.objectMember sound sound' held found
  | _ => cases found

end Store

/-! ## Chains of names -/

namespace Node

/-- A name, or a member of a chain of plain reads. -/
inductive IsPath : Node → Prop
  | name (span : Span) (name : String) : IsPath (.identifier span .absent name)
  | member (span span' : Span) (name : String) {target : Node} :
      IsPath target → IsPath (.identifier span (.usage span' target) name)

def isIdentifier : Node → Bool
  | .identifier .. => true
  | _ => false

theorem IsPath.isIdentifier {node : Node} (path : node.IsPath) : node.isIdentifier = true := by
  cases path <;> rfl

/-- What a member is a member of; a plain name has none. -/
def receiver : Node → Node
  | .identifier _ parent _ => parent
  | _ => .absent

def reach : Node → Nat
  | .identifier _ (.usage _ target) _ => target.reach + 2
  | _ => 1

end Node

namespace Store

variable {root scope : Scope} {s s' : Store} {slot : Slot}

/-- A name or a member of a chain of names means the slot, and finding it reads the slots `through`. -/
inductive Names (s : Store) (scope : Scope) : Node → List Slot → Slot → Prop
  | plain {span : Span} {name : String} {slot : Slot} :
      s.lookup scope name = .ok slot → Names s scope (.identifier span .absent name) [] slot
  | member {span span' : Span} {name : String} {target : Node} {through : List Slot} {holder slot : Slot}
      {value : Value} :
      Names s scope target through holder → s.read holder = .ok value → s.member value name = .ok slot →
      Names s scope (.identifier span (.usage span' target) name) (holder :: through) slot

def Gives (s : Store) (scope : Scope) (receiver : Node) (value : Value) : Prop :=
  ∃ span target through holder, receiver = .usage span target ∧ s.Names scope target through holder ∧
    s.read holder = .ok value

namespace Names

variable {node : Node} {through : List Slot}

theorem path (names : s.Names scope node through slot) : node.IsPath := by
  induction names with
  | plain => exact .name _ _
  | member _ _ _ inner => exact .member _ _ _ inner

theorem held (sound : s.WellFormed root) (names : s.Names scope node through slot) : slot.Held s := by
  induction names with
  | plain found => exact held_of_lookup found
  | member _ read found holder => exact held_of_member (sound.read_kept holder read).2 found

/-- In a store without new variables a chain means the same, if the variables it goes through hold the same. -/
theorem carry (grown : s.Extends (fun _ => False) s') (sound : s.WellFormed root) (sound' : s'.WellFormed root)
    (here : scope ∈ s.scopes) (names : s.Names scope node through slot)
    (same : ∀ holder ∈ through, s'.read holder = s.read holder) : s'.Names scope node through slot := by
  induction names with
  | plain found => exact .plain ((grown.lookup sound here _).trans found)
  | member inner read found ih =>
    obtain ⟨first, others⟩ := List.forall_mem_cons.1 same
    have held := (sound.read_kept (inner.held sound) read).2
    exact .member (ih others) (first.trans read) (grown.member sound sound' held found)

end Names

end Store

/-! ## Evaluating a chain -/

namespace Eval

variable {α β : Type} {m m' : Machine} {a : α}

theorem bind_eq_ok {x : Eval α} {k : α → Eval β} {b : β} :
    (x >>= k) m = .ok b m' ↔ ∃ a m₁, x m = .ok a m₁ ∧ k a m₁ = .ok b m' := by
  rw [bind_apply]
  cases x m with
  | ok a m₁ =>
    constructor
    · exact fun done => ⟨a, m₁, rfl, done⟩
    · rintro ⟨a', m₂, same, done⟩
      cases same
      exact done
  | error stop m₁ => simp

theorem pure_eq_ok {b : α} : (pure a : Eval α) m = .ok b m' ↔ a = b ∧ m = m' := by
  simp [pure, EStateM.pure]

theorem throw_eq_error {stop : Stop} : (throw stop : Eval α) m = .error stop m := rfl

theorem query_eq_ok {q : Store → Except Fault α} : query q m = .ok a m' ↔ q m.store = .ok a ∧ m = m' := by
  rw [query]
  cases q m.store with
  | ok b => exact pure_eq_ok.trans (by simp)
  | error fault => simp [ofExcept, fail, throw_eq_error]

theorem blaming_eq_ok {x : Eval α} {span : Span} : blaming span x m = .ok a m' ↔ x m = .ok a m' := by
  rw [blaming]
  cases x m <;> simp

end Eval

namespace Evaluator

open Eval Store

variable {policy : Policy} {budget : Nat} {scope : Scope} {m m' : Machine} {node : Node}

theorem eval_name_eq_ok {span : Span} {name : String} {v : Value} :
    eval policy (budget + 1) (.identifier span .absent name) scope m = .ok v m' ↔
      ∃ slot, m.store.lookup scope name = .ok slot ∧ v = .slot slot ∧ m = m' := by
  rw [eval, blaming_eq_ok, rule, identifier]
  simp only [Node.isAbsent, ↓reduceIte, bind_eq_ok, query_eq_ok, pure_eq_ok]
  constructor
  · rintro ⟨slot, _, ⟨found, rfl⟩, rfl, rfl⟩
    exact ⟨slot, found, rfl, rfl⟩
  · rintro ⟨slot, found, rfl, rfl⟩
    exact ⟨slot, m, ⟨found, rfl⟩, rfl, rfl⟩

theorem eval_member_eq_ok {span : Span} {parent : Node} (present : parent.isAbsent = false) {name : String}
    {v : Value} :
    eval policy (budget + 1) (.identifier span parent name) scope m = .ok v m' ↔
      ∃ found slot, value (eval policy budget) parent scope m = .ok found m' ∧
        m'.store.member found name = .ok slot ∧ v = .slot slot := by
  have asked : rule policy (eval policy budget) budget (.identifier span parent name) scope = do
      let found ← value (eval policy budget) parent scope
      return .slot (← query (·.member found name)) := by
    rw [rule, identifier, present]
    simp only [Bool.false_eq_true, ↓reduceIte]
    congr 1
    funext found
    cases found <;> rfl
  rw [eval, blaming_eq_ok, asked]
  simp only [bind_eq_ok, query_eq_ok, pure_eq_ok]
  constructor
  · rintro ⟨found, _, yields, slot, _, ⟨isMember, rfl⟩, rfl, rfl⟩
    exact ⟨found, slot, yields, isMember, rfl⟩
  · rintro ⟨found, slot, yields, isMember, rfl⟩
    exact ⟨found, m', yields, slot, m', ⟨isMember, rfl⟩, rfl, rfl⟩

theorem target_eq_ok {rec : Recursion} {slot : Slot} :
    target rec node scope m = .ok slot m' ↔
      node.isIdentifier = true ∧ rec node scope m = .ok (.slot slot) m' := by
  cases node with
  | identifier span parent name =>
    rw [target, bind_eq_ok]
    constructor
    · rintro ⟨found, _, yields, done⟩
      cases found with
      | slot slot =>
        obtain ⟨rfl, rfl⟩ := pure_eq_ok.1 done
        exact ⟨rfl, yields⟩
      | _ => cases done
    · rintro ⟨-, yields⟩
      exact ⟨.slot slot, m', yields, rfl⟩
  | _ => simp [target, Node.isIdentifier, throw_eq_error]

theorem eval_usage_eq_ok {span : Span} (isIdentifier : node.isIdentifier = true) {v : Value} :
    eval policy (budget + 1) (.usage span node) scope m = .ok v m' ↔
      ∃ slot, eval policy budget node scope m = .ok (.slot slot) m' ∧ m'.store.read slot = .ok v := by
  rw [eval, blaming_eq_ok, rule, usage]
  simp only [bind_eq_ok, query_eq_ok, target_eq_ok, isIdentifier, true_and]
  constructor
  · rintro ⟨slot, _, found, read, rfl⟩
    exact ⟨slot, found, read⟩
  · rintro ⟨slot, found, read⟩
    exact ⟨slot, m', found, read, rfl⟩

theorem value_eq_ok {rec : Recursion} {v : Value} :
    value rec node scope m = .ok v m' ↔
      ∃ found, rec node scope m = .ok found m' ∧ m'.store.plain found = .ok v := by
  rw [value]
  simp only [bind_eq_ok, blaming_eq_ok, Eval.plain, query_eq_ok]
  constructor
  · rintro ⟨found, _, yields, plain, rfl⟩
    exact ⟨found, yields, plain⟩
  · rintro ⟨found, yields, plain⟩
    exact ⟨found, m', yields, plain, rfl⟩

/-- The variable that a chain means is found, and nothing changes on the way. -/
theorem eval_of_names {through : List Slot} {slot : Slot} (names : m.store.Names scope node through slot)
    (enough : node.reach ≤ budget) : eval policy budget node scope m = .ok (.slot slot) m := by
  induction names generalizing budget with
  | plain found =>
    obtain ⟨budget, rfl⟩ := Nat.exists_eq_add_of_le' enough
    exact eval_name_eq_ok.2 ⟨_, found, rfl, rfl⟩
  | member inner read found ih =>
    obtain ⟨more, rfl⟩ := Nat.exists_eq_add_of_le' enough
    have holder := ih (Nat.le_add_left _ more)
    refine (eval_member_eq_ok rfl).2 ⟨_, _, value_eq_ok.2 ⟨_, ?_, plain_of_isPlain (isPlain_of_member found)⟩, found, rfl⟩
    exact (eval_usage_eq_ok inner.path.isIdentifier).2 ⟨_, holder, read⟩

/-- A chain that is evaluated means a variable. -/
theorem names_of_eval (sound : m.Sound) (path : node.IsPath) {v : Value}
    (yields : eval policy budget node scope m = .ok v m') :
    m = m' ∧ node.reach ≤ budget ∧ ∃ through slot, v = .slot slot ∧ m.store.Names scope node through slot := by
  induction path generalizing budget v m' with
  | name span name =>
    cases budget with
    | zero => cases yields
    | succ budget =>
      obtain ⟨slot, found, rfl, rfl⟩ := eval_name_eq_ok.1 yields
      exact ⟨rfl, Nat.le_add_left 1 budget, [], slot, rfl, .plain found⟩
  | member span span' name inner ih =>
    obtain _ | _ | budget := budget
    · cases yields
    · obtain ⟨found, slot, asked, -⟩ := (eval_member_eq_ok rfl).1 yields
      obtain ⟨_, asked, -⟩ := value_eq_ok.1 asked
      cases asked
    · obtain ⟨value, slot, asked, isMember, rfl⟩ := (eval_member_eq_ok rfl).1 yields
      obtain ⟨found, asked, plain⟩ := value_eq_ok.1 asked
      obtain ⟨holder, yields, read⟩ := (eval_usage_eq_ok inner.isIdentifier).1 asked
      obtain ⟨rfl, enough, through, _, same, names⟩ := ih yields
      cases same
      -- What a variable holds is no variable, so that the receiver is read only once.
      have kept := Store.WellFormed.read_kept sound (names.held sound) read
      obtain rfl : found = value := Except.ok.inj ((plain_of_isPlain kept.1).symm.trans plain)
      exact ⟨rfl, Nat.add_le_add_right enough 2, _, slot, rfl, .member names read isMember⟩

/-! ## Assignments -/

def operandOf (rec : Recursion) (operand : Node) (scope : Scope) : Eval Value :=
  if operand.isAbsent then pure (.integer 1) else value rec operand scope

def combined (op : AssignOp) (slot : Slot) (operand : Value) : Eval Value :=
  match op.arithmetic? with
  | none => pure operand
  | some arithmetic => do
    let current ← query (·.read slot)
    ofExcept (Operation.apply arithmetic current operand)

theorem assignment_eq (rec : Recursion) (op : AssignOp) (variableNode operandNode : Node) :
    assignment rec op variableNode operandNode scope = do
      let slot ← target rec variableNode scope
      let operand ← operandOf rec operandNode scope
      let result ← combined op slot operand
      Eval.write slot result
      return result := by
  rw [assignment]
  congr 1
  funext slot
  simp only [operandOf, combined]
  cases op.arithmetic? <;> split <;> simp

theorem combined_kept {op : AssignOp} {slot : Slot} {operand v : Value} (kept : operand.Kept m.store)
    (yields : combined op slot operand m = .ok v m') : m = m' ∧ v.Kept m.store := by
  rw [combined] at yields
  cases arithmetic : op.arithmetic? with
  | none =>
    rw [arithmetic] at yields
    obtain ⟨rfl, rfl⟩ := pure_eq_ok.1 yields
    exact ⟨rfl, kept⟩
  | some arithmetic' =>
    rw [arithmetic] at yields
    obtain ⟨current, _, asked, applied⟩ := bind_eq_ok.1 yields
    obtain ⟨-, rfl⟩ := query_eq_ok.1 asked
    have applied : query (fun _ => Operation.apply arithmetic' current operand) m = .ok v m' := applied
    obtain ⟨found, rfl⟩ := query_eq_ok.1 applied
    exact ⟨rfl, Operation.kept_of_apply _ found⟩

/-- The operand leaves the machine that evaluating it leaves, also if it is left out. -/
theorem operandOf_kept {operand : Node} {v : Value} (sound : m.Sound) (here : scope ∈ m.store.scopes)
    (yields : operandOf (eval policy budget) operand scope m = .ok v m') :
    m' = Eval.after (eval policy budget operand scope) m ∧ v.Kept m'.store := by
  rw [operandOf] at yields
  by_cases absent : operand.isAbsent = true
  · rw [if_pos absent] at yields
    obtain ⟨rfl, rfl⟩ := pure_eq_ok.1 yields
    have same : m = Eval.after (eval policy budget .absent scope) m := by cases budget <;> rfl
    cases operand with
    | absent => exact ⟨same, rfl, trivial⟩
    | _ => cases absent
  · rw [if_neg absent] at yields
    have leads : Leads (fun _ => True) m (value (eval policy budget) operand scope) fun v s => v.Kept s :=
      value_leads (eval_leads policy budget) operand ⟨sound, here⟩ fun _ => trivial
    rw [Leads, yields] at leads
    obtain ⟨found, asked, -⟩ := value_eq_ok.1 yields
    exact ⟨by rw [Eval.after, asked], leads.2⟩

/-- An assignment finds its variable, evaluates its operand, and writes to the variable. -/
theorem exists_of_assignment {op : AssignOp} {variableNode operand : Node} {span : Span} {v : Value} (sound : m.Sound)
    (here : scope ∈ m.store.scopes) (path : variableNode.IsPath)
    (done : eval policy (budget + 1) (.assignment span op variableNode operand) scope m = .ok v m') :
    let m₁ := Eval.after (eval policy budget operand scope) m
    variableNode.reach ≤ budget ∧ ∃ through slot, m.store.Names scope variableNode through slot ∧
      v.Kept m₁.store ∧ m' = m₁.mapStore (·.write slot v) := by
  intro m₁
  rw [eval, blaming_eq_ok, rule, assignment_eq] at done
  simp only [bind_eq_ok, pure_eq_ok] at done
  obtain ⟨slot, _, found, operandValue, _, operandDone, result, _, resultDone, _, _, written, rfl, rfl⟩ := done
  obtain ⟨-, found⟩ := target_eq_ok.1 found
  obtain ⟨rfl, enough, through, _, same, names⟩ := names_of_eval sound path found
  cases same
  obtain ⟨rfl, operandKept⟩ := operandOf_kept sound here operandDone
  obtain ⟨rfl, kept⟩ := combined_kept operandKept resultDone
  cases written
  exact ⟨enough, through, slot, names, kept, rfl⟩

end Evaluator

def Slot.assigned (v : Value) : Slot → Value
  | .stored .. => v
  | .method f => .function f

namespace Interpreter

open Evaluator Store

theorem names_after_operand {m m₁ : Machine} {scope : Scope} {target : Node} {through : List Slot} {slot : Slot}
    (sound : m.Sound) (here : scope ∈ m.store.scopes) (follows : m.Follows (fun _ => False) m₁)
    (names : m.store.Names scope target through slot)
    (keeps : ∀ value, m.store.Gives scope target.receiver value → m₁.store.Gives scope target.receiver value) :
    ∃ through', m₁.store.Names scope target through' slot := by
  have sound' : m₁.store.WellFormed m.root := follows.root ▸ follows.sound
  cases names with
  | plain found => exact ⟨[], .plain ((follows.grown.lookup sound here _).trans found)⟩
  | member inner read found =>
    obtain ⟨_, _, through', holder', same, inner', read'⟩ := keeps _ ⟨_, _, _, _, rfl, inner, read⟩
    cases same
    have held := (sound.read_kept (inner.held sound) read).2
    exact ⟨_, .member inner' read' (follows.grown.member sound sound' held found)⟩

/-- After an assignment whose operand does not rebind the receiver, the variable that the target means is read with
the assigned value, unless the assignment rebinds the receiver itself; a function of the class of an object is
read as it was. -/
theorem usage_after_assignment {extra : List Builtin} {m m' : Machine} (reachable : Reachable extra m) {scope : Scope}
    (here : scope ∈ m.store.scopes) {policy : Policy} {budget : Nat} {span : Span} {op : AssignOp}
    {target operand : Node} (path : target.IsPath) (quiet : operand.Quiet) {v : Value}
    (done : eval policy (budget + 1) (.assignment span op target operand) scope m = .ok v m')
    (keeps : ∀ value, m.store.Gives scope target.receiver value →
      (Eval.after (eval policy budget operand scope) m).store.Gives scope target.receiver value) :
    ∃ through slot,
      (Eval.after (eval policy budget operand scope) m).store.Names scope target through slot ∧
      (target.receiver = .absent → through = [] ∧ slot.assigned v = v) ∧
      (slot ∉ through → ∀ span' budget', budget ≤ budget' →
        eval policy (budget' + 1) (.usage span' target) scope m' = .ok (slot.assigned v) m') := by
  have sound := reachable.sound
  obtain ⟨enough, _, slot, names, kept, rfl⟩ := exists_of_assignment sound here path done
  have follows : m.Follows (fun _ => False) (Eval.after (eval policy budget operand scope) m) :=
    (eval_leads policy budget operand ⟨sound, here⟩ fun loud => loud quiet).follows
  -- All that matters of the operand is the machine that it leaves.
  generalize Eval.after (eval policy budget operand scope) m = m₁ at *
  obtain ⟨through, names⟩ := names_after_operand sound here follows names keeps
  refine ⟨through, slot, names, ?_, ?_⟩
  · intro bare
    cases names with
    | plain found =>
      obtain ⟨id, rfl⟩ := stored_of_lookup found
      exact ⟨rfl, rfl⟩
    | member => cases bare
  · intro apart span' budget' more
    obtain ⟨sound', grown⟩ := Store.WellFormed.write follows.sound slot kept.2
    -- The chain means the same variable still, since no variable on the way to it was written to.
    have afterwards : (m₁.store.write slot v).Names scope target through slot := by
      apply names.carry grown follows.sound sound' (follows.grown.mem here)
      intro holder member
      apply read_write_ne
      rintro rfl
      exact apart member
    refine (eval_usage_eq_ok path.isIdentifier).2 ⟨slot, eval_of_names afterwards (Nat.le_trans enough more), ?_⟩
    cases slot with
    | stored id name => exact read_write_self (names.held follows.sound) kept.1
    | method f => rfl

def innerText : List UInt8 :=
  "class A \x7b var x = 5 \x7d\nclass B \x7b var inner = new A() \x7d\nvar o = new B()".toUTF8.data.toList

/-- The variable `o.inner.x`. -/
def nestedField : Node :=
  .identifier .none (.usage .none (.identifier .none (.usage .none (.identifier .none .absent "o")) "inner")) "x"

theorem usage_after_assignment_nestedField :
    let m := (evaluate {} (parseSource innerText).1 (start [])).2
    Reachable [] m ∧ m.root ∈ m.store.scopes ∧ nestedField.IsPath ∧ (Node.integer .none 2).Quiet ∧
      ∃ v m', eval {} (9 + 1) (.assignment .none .add nestedField (.integer .none 2)) m.root m = .ok v m' ∧
        ∃ through slot, m.store.Names m.root nestedField through slot ∧
          (nestedField.receiver = .absent → through = [] ∧ slot.assigned v = v) ∧
          (slot ∉ through → ∀ span' budget', 9 ≤ budget' →
            eval {} (budget' + 1) (.usage span' nestedField) m.root m' = .ok (slot.assigned v) m') := by
  intro m
  have reachable : Reachable [] m := Reachable.start.evaluate {} _
  have here : m.root ∈ m.store.scopes := reachable.sound.rooted.1
  have path : nestedField.IsPath := .member _ _ _ (.member _ _ _ (.name _ _))
  have quiet : (Node.integer .none 2).Quiet := .integer _ _
  have yields : (eval {} (9 + 1) (.assignment .none .add nestedField (.integer .none 2)) m.root).succeeds m = true := by
    decide +kernel
  obtain ⟨v, done⟩ := Eval.exists_of_succeeds yields
  exact ⟨reachable, here, path, quiet, v, _, done, usage_after_assignment reachable here path quiet done fun _ => id⟩

def Outcome.text? : Outcome → Option String
  | .value v => some v.text
  | .stopped _ => none

def methodText : List UInt8 := "class A \x7b function f() \x7b \x7d \x7d\nvar o = new A()".toUTF8.data.toList

/-- What is assigned to a method of an object is lost: the assignment yields it, and the method is still there. -/
theorem method_not_assigned :
    let m := (evaluate {} (parseSource methodText).1 (start [])).2
    let assigned := evaluate {} (parseSource "o.f = 5".toUTF8.data.toList).1 m
    assigned.1.text? = some "5" ∧
      (evaluate {} (parseSource "o.f".toUTF8.data.toList).1 assigned.2).1.text? = some "<function f>" := by
  decide +kernel

end Interpreter

end ClassScript
