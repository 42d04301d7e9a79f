import ClassScript.Proofs.Evaluator.Frame
import ClassScript.Proofs.Store.Linked
import Mathlib.Logic.ExistsUnique

/-! # Reachable machines

A machine is reachable if it is a started one after any number of evaluations, of any nodes in any of its
scopes, each of which may have stopped early.  Every reachable machine is sound (`Reachable.sound`); what
that means for the scopes, variables and values in it is `reachable_store`.  Laid out with addresses, its store has
links that are in order (`Reachable.exists_heap`).
-/

namespace ClassScript

def Eval.after {α : Type} (x : Eval α) (m : Machine) : Machine :=
  match x m with
  | .ok _ m' => m'
  | .error _ m' => m'

theorem Eval.Leads.follows {α : Type} {own : TableId → Prop} {m : Machine} {x : Eval α}
    {Q : α → Store → Prop} (leads : Leads own m x Q) : m.Follows own (x.after m) := by
  rw [Leads] at leads
  rw [after]
  cases result : x m with
  | ok a m' =>
    rw [result] at leads
    exact leads.1
  | error stop m' =>
    rw [result] at leads
    exact leads

def Eval.succeeds {α : Type} (x : Eval α) (m : Machine) : Bool :=
  match x m with
  | .ok .. => true
  | .error .. => false

theorem Eval.exists_of_succeeds {α : Type} {x : Eval α} {m : Machine} (done : x.succeeds m = true) :
    ∃ a, x m = .ok a (x.after m) := by
  rw [succeeds] at done
  rw [after]
  cases result : x m with
  | ok a m' => exact ⟨a, rfl⟩
  | error stop m' =>
    rw [result] at done
    cases done

namespace Interpreter

open Machine

/-! ## The first machine -/

theorem blank_sound : blank.Sound where
  size := rfl
  placed := by
    rintro (_ | i) scope placed
    · cases placed
      rfl
    · cases placed
  rooted := by simp [blank, Store.nest, Store.grow, Scope.parent?, Store.inner, Store.upcoming]
  parents := by simp [blank, Store.nest, Store.grow, Store.empty]
  distinct := by simp [blank, Store.nest, Store.grow, Store.empty, Table.names]
  kept := by simp [blank, Store.nest, Store.grow, Store.empty]

theorem install_sound {m : Machine} (sound : m.Sound) (builtin : Builtin) :
    (install m builtin).Sound := by
  have assign {s : Store} (sound' : s.WellFormed m.root) (f : FunctionValue) (is : f.closure = m.root) :
      (s.write (.stored m.root.table builtin.name) (.function f)).WellFormed m.root := by
    refine (sound'.write _ (v := .function f) ?_).1
    rw [Value.Held, is]
    exact sound'.rooted.1
  rw [Sound, install, Store.declare]
  by_cases taken : (m.store.declared m.root).has builtin.name
  · rw [if_pos taken]
    exact assign sound _ rfl
  · rw [if_neg taken]
    exact assign (sound.declare sound.rooted.1 (by simpa using taken) .function).1 _ rfl

theorem start_sound (extra : List Builtin) : (start extra).Sound :=
  List.foldlRecOn (builtins ++ extra) install blank_sound fun _ sound builtin _ =>
    install_sound sound builtin

theorem install_built {m : Machine} (sound : m.Sound) (built : m.store.Built) (builtin : Builtin) :
    (install m builtin).store.Built := by
  simp only [install]
  refine .write _ _ ?_
  split
  next declared => exact .declare built sound.rooted.1 declared
  next => exact built

theorem start_built (extra : List Builtin) : (start extra).store.Built := by
  have blankBuilt : blank.store.Built := .nest .empty (by simp)
  have both : (start extra).Sound ∧ (start extra).store.Built :=
    List.foldlRecOn (motive := fun m => m.Sound ∧ m.store.Built) (builtins ++ extra) install
      ⟨blank_sound, blankBuilt⟩ fun _ ih builtin _ =>
        ⟨install_sound ih.1 builtin, install_built ih.1 ih.2 builtin⟩
  exact both.2

/-! ## All machines -/

/-- The machines that a host can get to that adds some functions. -/
inductive Reachable (extra : List Builtin) : Machine → Prop
  | start : Reachable extra (start extra)
  /-- A machine after the evaluation of a node in one of its scopes. -/
  | evaluated {m : Machine} (policy : Policy) (budget : Nat) (node : Node) {scope : Scope} :
      Reachable extra m → scope ∈ m.store.scopes →
      Reachable extra (Eval.after (Evaluator.eval policy budget node scope) m)
  /-- A machine after its output was taken. -/
  | taken {m : Machine} : Reachable extra m → Reachable extra (take m).2.2

variable {extra : List Builtin}

theorem Reachable.sound {m : Machine} (reachable : Reachable extra m) : m.Sound := by
  induction reachable with
  | start => exact start_sound extra
  | evaluated policy budget node _ here ih =>
    have leads : Eval.Leads (fun _ => True) _ (Evaluator.eval policy budget node _) _ :=
      Evaluator.eval_leads policy budget node ⟨ih, here⟩ fun _ => trivial
    exact leads.follows.sound
  | taken _ ih => exact ih

theorem Reachable.built {m : Machine} (reachable : Reachable extra m) : m.store.Built := by
  induction reachable with
  | start => exact start_built extra
  | evaluated policy budget node reachable here ih =>
    have leads : Eval.Leads (fun _ => True) _ (Evaluator.eval policy budget node _) _ :=
      Evaluator.eval_leads policy budget node ⟨reachable.sound, here⟩ fun _ => trivial
    exact leads.follows.built ih
  | taken _ ih => exact ih

/-- The store of a machine that a host can get to has a heap that one gets to in the same way.  Its links are in
    order, and following them finds the variables that names mean. -/
theorem Reachable.exists_heap {m : Machine} (reachable : Reachable extra m) :
    ∃ h : Heap, h.Made ∧ h.Represents m.store ∧ h.WellLinked m.root.frame.id ∧
      ∀ scope ∈ m.store.scopes, ∀ name r,
        h.Resolves name (some scope.frame.id) r ↔ r = (m.store.resolve? scope name).bind h.address := by
  obtain ⟨h, made, represents⟩ := reachable.built.exists_heap
  have numbered := reachable.built.numbered
  exact ⟨h, made, represents, represents.wellLinked numbered reachable.sound,
    fun _ here => represents.resolves_iff numbered here⟩

/-- Running a program leaves the machine that evaluating it in the root scope leaves. -/
theorem evaluate_snd (policy : Policy) (node : Node) (m : Machine) :
    (evaluate policy node m).2 = Eval.after (Evaluator.eval policy budget node m.root) m := by
  rw [evaluate, Eval.after]
  cases Evaluator.eval policy budget node m.root m <;> rfl

theorem Reachable.evaluate {m : Machine} (reachable : Reachable extra m) (policy : Policy) (node : Node) :
    Reachable extra (evaluate policy node m).2 := by
  rw [evaluate_snd]
  exact .evaluated policy budget node reachable reachable.sound.rooted.1

/-- What the tables, scopes and values of a machine have to do with each other. -/
structure Consistent (m : Machine) : Prop where
  /-- No table lists a name twice. -/
  order : ∀ t ∈ m.store.tables, t.names.Nodup
  /-- A table lists the names that it has a variable for, and that variable has the name. -/
  keys : ∀ t ∈ m.store.tables, ∀ name,
    name ∈ t.names ↔ ∃ v, t.get? name = some v ∧ v.name = name
  /-- No variable holds a variable. -/
  plain : ∀ t ∈ m.store.tables, ∀ v ∈ t, ∀ x, v.value = some x → x.isPlain
  /-- Every scope has a table, and no other scope has it. -/
  apart : ∀ scope ∈ m.store.scopes, m.store.declared scope ∈ m.store.tables ∧
    ∀ other ∈ m.store.scopes, other.table = scope.table → other = scope
  /-- Every slot is one variable of one scope. -/
  slots : ∀ id name, (m.store.table id).has name → ∃! place : Scope × Variable,
    place.1 ∈ m.store.scopes ∧ place.1.table = id ∧ place.2 ∈ m.store.declared place.1 ∧
      place.2.name = name
  /-- The scopes around a scope are all different and lead to the root. -/
  chains : ∀ scope ∈ m.store.scopes, scope.chain.Nodup ∧
    (∀ outer ∈ scope.chain, outer ∈ m.store.scopes) ∧ scope.chain.getLast? = some m.root
  /-- Functions close over scopes of the store, also those of classes, and the scope of an object lies
      in the member scope of its class. -/
  values : ∀ t ∈ m.store.tables, ∀ v ∈ t, ∀ x, v.value = some x → x.Held m.store

theorem consistent_of_sound {m : Machine} (sound : m.Sound) : Consistent m where
  order := sound.distinct
  keys := by
    intro t _ name
    rw [← Table.has_iff, Table.has, Option.isSome_iff_exists]
    constructor
    · rintro ⟨v, found⟩
      exact ⟨v, found, (Table.mem_of_get? found).2⟩
    · rintro ⟨v, found, _⟩
      exact ⟨v, found⟩
  plain := fun t there v here x found => (sound.kept t there v here x found).1
  apart := fun scope member =>
    ⟨sound.table_mem member, fun other there same => sound.eq_of_table there member same⟩
  slots := by
    intro id name there
    obtain ⟨scope, member, rfl⟩ := sound.exists_scope there
    obtain ⟨v, found⟩ := Option.isSome_iff_exists.1 there
    obtain ⟨here, named⟩ := Table.mem_of_get? found
    refine ⟨(scope, v), ⟨member, rfl, here, named⟩, ?_⟩
    -- A table belongs to one scope, and has one variable of a name.
    rintro ⟨scope', v'⟩ ⟨member', same, here', named'⟩
    obtain rfl : scope' = scope := sound.eq_of_table member' member same
    have found' : (m.store.table scope'.table).get? v'.name = some v' :=
      Table.get?_of_mem (sound.table_distinct _) here'
    rw [show v'.name = name from named'] at found'
    rw [Option.some.inj (found'.symm.trans found)]
  chains := by
    intro scope member
    obtain ⟨distinct, inside, last⟩ := sound.chain member
    exact ⟨distinct, fun outer there => (inside outer there).1, last⟩
  values := fun t there v here x found => (sound.kept t there v here x found).2

/-- In every machine that a host can get to, the store is consistent, and what an evaluation yields
    belongs to the store it leaves. -/
theorem reachable_store {m : Machine} (reachable : Reachable extra m) :
    Consistent m ∧
      ∀ (policy : Policy) (budget : Nat) (node : Node) (scope : Scope) (v : Value) (m' : Machine),
        scope ∈ m.store.scopes → Evaluator.eval policy budget node scope m = .ok v m' →
        v.Held m'.store := by
  refine ⟨consistent_of_sound reachable.sound, fun policy budget node scope v m' here yields => ?_⟩
  have leads : Eval.Leads (fun _ => True) m (Evaluator.eval policy budget node scope)
      fun v s => v.Held s :=
    Evaluator.eval_leads policy budget node ⟨reachable.sound, here⟩ fun _ => trivial
  rw [Eval.Leads, yields] at leads
  exact leads.2

/-- A program that makes a class and an object of it, and then asks the object for a field that it does
    not have. -/
def missingField : Node :=
  let name (text : String) : Node := .identifier .none .absent text
  let declaration (target : String) (value : Node) : Node :=
    .variableDeclaration .none {} target .dynamic (.assignment .none .assign (name target) value)
  .tree .none
    [ .classDeclaration .none {} "A" [declaration "x" (.integer .none 1)] [] [],
      declaration "a" (.instantiation .none (name "A") []),
      .identifier .none (name "a") "y" ]

theorem reachable_store_missingField :
    let m := (evaluate {} missingField (start [])).2
    Reachable [] m ∧ m.store.scopes.size = 3 ∧ Consistent m := by
  have reachable : Reachable [] _ := Reachable.start.evaluate {} missingField
  exact ⟨reachable, by decide +kernel, (reachable_store reachable).1⟩

end Interpreter

end ClassScript
