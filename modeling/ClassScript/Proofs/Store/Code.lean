import ClassScript.Proofs.Store.WellFormed
import ClassScript.Proofs.Syntax.Complete

/-! # Code in the store

Functions and classes hold the syntax trees that they are evaluated from.  `Store.Carries p s` says of a store
that no variable of it holds a variable, and that every tree in it has the property `p` throughout.  Nothing
that evaluation does to a store takes that away, as long as the values that are written carry only such code.
-/

namespace ClassScript

variable {p : Node → Prop}

def FunctionValue.Carries (p : Node → Prop) (f : FunctionValue) : Prop := f.body.Throughout p

structure ClassValue.Carries (p : Node → Prop) (c : ClassValue) : Prop where
  prototype : ∀ f ∈ c.prototype, f.Carries p
  fields : ∀ n ∈ c.fields, n.Throughout p

def Slot.Carries (p : Node → Prop) : Slot → Prop
  | .stored _ _ => True
  | .method f => f.Carries p

namespace Value

def Carries (p : Node → Prop) : Value → Prop
  | .function f => f.Carries p
  | .blueprint c => c.Carries p
  | .object o => o.blueprint.Carries p
  | .slot found => found.Carries p
  | _ => True

/-- The value can be kept in a variable, and the code in it has the property. -/
def Keeps (p : Node → Prop) (v : Value) : Prop := v.isPlain ∧ v.Carries p

end Value

/-! ## What variables hold -/

def Store.Holds (P : Value → Prop) (s : Store) : Prop := ∀ t ∈ s.tables, ∀ v ∈ t, ∀ x, v.value = some x → P x

namespace Store.Holds

variable {P P' : Value → Prop} {s : Store}

theorem mono (holds : s.Holds P) (weaker : ∀ x, P x → P' x) : s.Holds P' :=
  fun t there v here x found => weaker x (holds t there v here x found)

theorem table (holds : s.Holds P) {id : TableId} {v : Variable} (here : v ∈ s.table id) {x : Value}
    (found : v.value = some x) : P x := by
  rcases WellFormed.table_mem_or_nil s id with there | empty
  · exact holds _ there v here x found
  · rw [empty] at here
    cases here

theorem stored (holds : s.Holds P) {id : TableId} {name : String} {x : Value}
    (found : (s.entry (.stored id name)).value = some x) : P x := by
  obtain ⟨v, here, value⟩ := mem_of_entry found
  exact holds.table here value

theorem modifyTable (holds : s.Holds P) (id : TableId) {f : Table → Table}
    (kept : ∀ v ∈ f (s.table id), v ∈ s.table id ∨ ∀ x, v.value = some x → P x) :
    (s.modifyTable id f).Holds P := by
  intro t there v here x found
  rcases mem_modifyTable there with old | rfl
  · exact holds t old v here x found
  · rcases kept v here with before | fresh
    · exact holds.table before found
    · exact fresh x found

theorem add (holds : s.Holds P) (id : TableId) (name : String) (type : DeclaredType) :
    (s.modifyTable id (·.add name type)).Holds P := by
  refine holds.modifyTable id fun v here => ?_
  rcases List.mem_append.1 here with old | new
  · exact .inl old
  · rw [List.mem_singleton.1 new]
    refine .inr fun x found => ?_
    cases found

theorem assign (holds : s.Holds P) (id : TableId) (name : String) {x : Value} (kept : P x) :
    (s.modifyTable id (·.assign name x)).Holds P := by
  refine holds.modifyTable id fun v here => ?_
  obtain ⟨u, old, rfl⟩ := List.mem_map.1 here
  split
  · refine .inr fun y found => ?_
    cases found
    exact kept
  · exact .inl old

theorem grow (holds : s.Holds P) (scope : Scope) : (s.grow scope).Holds P := by
  intro t there v here x found
  rcases Array.mem_push.1 there with old | rfl
  · exact holds t old v here x found
  · cases here

end Store.Holds

/-- No variable holds a variable, and the code in all values has the property. -/
def Store.Carries (p : Node → Prop) (s : Store) : Prop :=
  ∀ t ∈ s.tables, ∀ v ∈ t, ∀ x, v.value = some x → x.Keeps p

namespace Store

variable {s : Store}

theorem Carries.holds (carries : s.Carries p) : s.Holds (·.Keeps p) := carries

/-! ## Reading -/

theorem Carries.entry (carries : s.Carries p) {slot : Slot} (code : slot.Carries p) {x : Value}
    (found : (s.entry slot).value = some x) : x.Keeps p := by
  cases slot with
  | stored id name => exact carries.holds.stored found
  | method f =>
    cases found
    exact ⟨rfl, code⟩

theorem Carries.read (carries : s.Carries p) {slot : Slot} (code : slot.Carries p) {x : Value}
    (found : s.read slot = .ok x) : x.Keeps p :=
  carries.entry code (entry_of_read found)

theorem Carries.plain (carries : s.Carries p) {v : Value} (code : v.Carries p) {x : Value}
    (found : s.plain v = .ok x) : x.Keeps p := by
  cases v with
  | slot slot => exact carries.read code found
  | _ =>
    cases found
    exact ⟨rfl, code⟩

theorem Carries.storable (carries : s.Carries p) {v : Value} (code : v.Carries p) :
    (s.storable v).Keeps p := by
  cases v with
  | slot slot =>
    rw [Store.storable]
    cases holds : (s.entry slot).value with
    | none => exact ⟨rfl, trivial⟩
    | some y => exact carries.entry code holds
  | _ => exact ⟨rfl, code⟩

theorem carries_of_lookup {scope : Scope} {name : String} {slot : Slot}
    (found : s.lookup scope name = .ok slot) : slot.Carries p := by
  obtain ⟨id, rfl⟩ := stored_of_lookup found
  trivial

theorem carries_of_classMember {c : ClassValue} {name : String} {slot : Slot}
    (found : s.classMember c name = .ok slot) : slot.Carries p := by
  rw [eq_stored_of_classMember found]
  trivial

theorem carries_of_objectMember {o : ObjectValue} (code : o.blueprint.Carries p) {name : String}
    {slot : Slot} (found : s.objectMember o name = .ok slot) : slot.Carries p := by
  rcases objectMember_cases found with ⟨rfl, -⟩ | ⟨f, method, -, rfl⟩ | static
  · trivial
  · exact code.prototype f method
  · exact carries_of_classMember static

/-! ## Writing -/

theorem Carries.add (carries : s.Carries p) (id : TableId) (name : String) (type : DeclaredType) :
    (s.modifyTable id (·.add name type)).Carries p :=
  carries.holds.add id name type

/-- What is written is never a variable, but what that holds. -/
theorem Carries.write (carries : s.Carries p) (slot : Slot) {v : Value} (code : v.Carries p) :
    (s.write slot v).Carries p := by
  cases slot with
  | stored id name => exact carries.holds.assign id name (carries.storable code)
  | method f => exact carries

theorem Carries.grow (carries : s.Carries p) (scope : Scope) : (s.grow scope).Carries p :=
  carries.holds.grow scope

end Store

/-- Operators yield numbers and truth values, which have no code in them. -/
theorem Operation.carries_of_apply {op : BinaryOp} {l r v : Value} (found : apply op l r = .ok v) :
    v.Carries p := by
  have datum := isDatum_of_apply found
  cases v with
  | integer | double | boolean => trivial
  | _ => cases datum

end ClassScript
