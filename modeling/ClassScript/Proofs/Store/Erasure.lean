import ClassScript.Proofs.Store.WellFormed
import ClassScript.Proofs.Syntax.Spans

/-! # States up to the spans in them

Functions keep their bodies and classes their field declarations, so that spans of the source get into
values, variables and errors.  `erase` forgets them throughout.  Every operation of the store and every
operator commutes with it: none of them looks at a span.
-/

namespace ClassScript

/-! ## Values -/

def FunctionValue.erase (f : FunctionValue) : FunctionValue := { f with body := f.body.erase }

def ClassValue.erase (c : ClassValue) : ClassValue :=
  { c with prototype := c.prototype.map (·.erase), fields := c.fields.map (·.erase) }

def ObjectValue.erase (o : ObjectValue) : ObjectValue := { o with blueprint := o.blueprint.erase }

def Slot.erase : Slot → Slot
  | .stored table name => .stored table name
  | .method f => .method f.erase

def Value.erase : Value → Value
  | .function f => .function f.erase
  | .blueprint c => .blueprint c.erase
  | .object o => .object o.erase
  | .slot found => .slot found.erase
  | plain => plain

def Variable.erase (v : Variable) : Variable := { v with value := v.value.map (·.erase) }

def Table.erase (t : Table) : Table := t.map (·.erase)

def Store.erase (s : Store) : Store := { s with tables := s.tables.map (·.erase) }

def Machine.erase (m : Machine) : Machine := { m with store := m.store.erase }

def Stop.erase : Stop → Stop
  | .failure f => .failure { f with span := .none }
  | stop => stop

def Interpreter.Outcome.erase : Outcome → Outcome
  | .value found => .value found.erase
  | .stopped reason => .stopped reason.erase

/-! What else a value or variable is made of stays. -/

section Fields

variable (f : FunctionValue) (c : ClassValue) (o : ObjectValue) (v : Variable)

@[simp] theorem FunctionValue.stamp_erase : f.erase.stamp = f.stamp := rfl
@[simp] theorem FunctionValue.name_erase : f.erase.name = f.name := rfl
@[simp] theorem FunctionValue.params_erase : f.erase.params = f.params := rfl
@[simp] theorem FunctionValue.body_erase : f.erase.body = f.body.erase := rfl
@[simp] theorem FunctionValue.closure_erase : f.erase.closure = f.closure := rfl
@[simp] theorem FunctionValue.native_erase : f.erase.native = f.native := rfl
@[simp] theorem ClassValue.name_erase : c.erase.name = c.name := rfl
@[simp] theorem ClassValue.members_erase : c.erase.members = c.members := rfl
@[simp] theorem ClassValue.fields_erase : c.erase.fields = c.fields.map (·.erase) := rfl
@[simp] theorem ObjectValue.blueprint_erase : o.erase.blueprint = o.blueprint.erase := rfl
@[simp] theorem ObjectValue.scope_erase : o.erase.scope = o.scope := rfl
@[simp] theorem Variable.name_erase : v.erase.name = v.name := rfl
@[simp] theorem Variable.value_erase : v.erase.value = v.value.map (·.erase) := rfl

end Fields

@[simp] theorem Value.kind_erase (v : Value) : v.erase.kind = v.kind := by cases v <;> rfl

@[simp] theorem Value.text_erase (v : Value) : v.erase.text = v.text := by cases v <;> rfl

/-! The sort of a value is seen in the value without places. -/

namespace Value

variable {v : Value}

theorem function_of_erase {f : FunctionValue} (same : v.erase = .function f) :
    ∃ f', v = .function f' ∧ f'.erase = f := by
  cases v with
  | function f' => exact ⟨f', rfl, Value.function.inj same⟩
  | _ => cases same

theorem blueprint_of_erase {c : ClassValue} (same : v.erase = .blueprint c) :
    ∃ c', v = .blueprint c' ∧ c'.erase = c := by
  cases v with
  | blueprint c' => exact ⟨c', rfl, Value.blueprint.inj same⟩
  | _ => cases same

theorem object_of_erase {o : ObjectValue} (same : v.erase = .object o) : ∃ o', v = .object o' ∧ o'.erase = o := by
  cases v with
  | object o' => exact ⟨o', rfl, Value.object.inj same⟩
  | _ => cases same

theorem slot_of_erase {slot : Slot} (same : v.erase = .slot slot) : ∃ slot', v = .slot slot' ∧ slot'.erase = slot := by
  cases v with
  | slot slot' => exact ⟨slot', rfl, Value.slot.inj same⟩
  | _ => cases same

end Value

@[simp] theorem FunctionValue.bind_erase (f : FunctionValue) (scope : Scope) :
    f.erase.bind scope = (f.bind scope).erase := rfl

@[simp] theorem FunctionValue.same_erase (f g : FunctionValue) : f.erase.same g.erase = f.same g := by
  simp only [same, stamp_erase, native_erase, closure_erase, body_erase, Node.isAbsent_erase]
  rfl

@[simp] theorem ClassValue.method?_erase (c : ClassValue) (name : String) :
    c.erase.method? name = (c.method? name).map (·.erase) := by
  simp only [method?, erase, List.find?_map, Function.comp_def, FunctionValue.name_erase]
  rfl

/-- Whoever is blamed, it is forgotten. -/
@[simp] theorem Stop.erase_blame (stop : Stop) (span : Span) : (stop.blame span).erase = stop.erase := by
  cases stop with
  | failure failure =>
    simp only [blame, erase, Failure.blame]
    split <;> rfl
  | _ => rfl

@[simp] theorem Stop.blame_erase (stop : Stop) : stop.erase.blame .none = stop.erase := by
  cases stop <;> rfl

/-! ## Tables and stores -/

namespace Table

@[simp] theorem get?_erase (t : Table) (name : String) :
    t.erase.get? name = (t.get? name).map (·.erase) := by
  simp only [get?, erase, List.find?_map, Function.comp_def, Variable.name_erase]
  rfl

@[simp] theorem names_erase (t : Table) : t.erase.names = t.names := by
  simp [names, erase]

@[simp] theorem has_erase (t : Table) (name : String) : t.erase.has name = t.has name := by
  simp [has]

@[simp] theorem length_erase (t : Table) : t.erase.length = t.length := by simp [erase]

@[simp] theorem add_erase (t : Table) (name : String) (type : DeclaredType) :
    t.erase.add name type = (t.add name type).erase := by
  simp [add, erase, Variable.erase]

@[simp] theorem assign_erase (t : Table) (name : String) (value : Value) :
    t.erase.assign name value.erase = (t.assign name value).erase := by
  simp only [assign, erase, List.map_map, List.map_inj_left, Function.comp_apply]
  intro v _
  by_cases same : v.name = name
  · rw [if_pos same, if_pos (show v.erase.name = name from same)]
    rfl
  · rw [if_neg same, if_neg (show v.erase.name ≠ name from same)]

end Table

namespace Store

variable (s : Store)

@[simp] theorem table_erase (id : TableId) : s.erase.table id = (s.table id).erase := by
  simp only [table, erase, Array.getElem?_map]
  cases s.tables[id]? <;> rfl

@[simp] theorem declared_erase (scope : Scope) : s.erase.declared scope = (s.declared scope).erase :=
  s.table_erase scope.table

theorem view_erase (scope : Scope) : s.erase.view scope = s.view scope := by
  simp only [view, table_erase, Table.names_erase]

@[simp] theorem inner_erase (parent : Option Scope) : s.erase.inner parent = s.inner parent := by
  simp [inner, upcoming, erase]

@[simp] theorem grow_erase (scope : Scope) : grow scope s.erase = (grow scope s).erase := by
  simp [grow, erase, Table.erase]

theorem modifyTable_erase (id : TableId) {f f' : Table → Table}
    (commutes : ∀ t : Table, f' t.erase = (f t).erase) :
    modifyTable id f' s.erase = (modifyTable id f s).erase := by
  simp only [modifyTable, erase, Store.mk.injEq, and_true]
  apply Array.ext
  · simp
  · intro i below _
    simp only [Array.getElem_modify, Array.getElem_map]
    split
    · exact commutes _
    · rfl

@[simp] theorem resolve?_erase (scope : Scope) (name : String) :
    s.erase.resolve? scope name = (s.resolve? scope name).map (·.erase) := by
  simp only [resolve?]
  induction scope.frames with
  | nil => rfl
  | cons frame rest ih =>
    simp only [resolveIn, table_erase, Table.has_erase, ih]
    split <;> rfl

@[simp] theorem lookup_erase (scope : Scope) (name : String) :
    s.erase.lookup scope name = (s.lookup scope name).map (·.erase) := by
  simp only [lookup, resolve?_erase]
  cases s.resolve? scope name <;> rfl

@[simp] theorem entry_erase (slot : Slot) : s.erase.entry slot.erase = (s.entry slot).erase := by
  cases slot with
  | stored table name =>
    simp only [Slot.erase, entry, table_erase, Table.get?_erase]
    cases (s.table table).get? name <;> rfl
  | method f => rfl

@[simp] theorem read_erase (slot : Slot) : s.erase.read slot.erase = (s.read slot).map (·.erase) := by
  simp only [read, entry_erase, Variable.value_erase, Variable.name_erase]
  cases (s.entry slot).value <;> rfl

@[simp] theorem plain_erase (value : Value) : s.erase.plain value.erase = (s.plain value).map (·.erase) := by
  cases value with
  | slot slot => exact s.read_erase slot
  | _ => rfl

@[simp] theorem storable_erase (value : Value) : s.erase.storable value.erase = (s.storable value).erase := by
  cases value with
  | slot slot =>
    simp only [Value.erase, storable, entry_erase, Variable.value_erase]
    cases (s.entry slot).value <;> rfl
  | _ => rfl

@[simp] theorem write_erase (slot : Slot) (value : Value) :
    s.erase.write slot.erase value.erase = (s.write slot value).erase := by
  cases slot with
  | stored table name =>
    simp only [Slot.erase, write, storable_erase]
    exact s.modifyTable_erase table fun t => t.assign_erase name _
  | method f => rfl

@[simp] theorem text_erase (value : Value) : s.erase.text value.erase = s.text value := by
  cases value with
  | slot slot =>
    simp only [Value.erase, text, entry_erase, Variable.value_erase, Variable.name_erase]
    cases (s.entry slot).value with
    | none => rfl
    | some value => exact value.text_erase
  | _ => rfl

@[simp] theorem classMember_erase (c : ClassValue) (name : String) :
    s.erase.classMember c.erase name = (s.classMember c name).map (·.erase) := by
  simp only [classMember, ClassValue.members_erase, ClassValue.name_erase, declared_erase,
    Table.get?_erase]
  rcases (s.declared c.members).get? name with _ | ⟨_, _, _ | _⟩ <;> rfl

@[simp] theorem objectMember_erase (o : ObjectValue) (name : String) :
    s.erase.objectMember o.erase name = (s.objectMember o name).map (·.erase) := by
  simp only [objectMember, ObjectValue.scope_erase, ObjectValue.blueprint_erase, declared_erase,
    Table.has_erase, ClassValue.method?_erase, classMember_erase]
  split
  · rfl
  · cases o.blueprint.method? name <;> rfl

end Store

/-! ## Operators -/

namespace Operation

theorem equal?_erase (l r : Value) : equal? l.erase r.erase = equal? l r := by
  cases l <;> cases r
  case function.function => exact congrArg some (FunctionValue.same_erase _ _)
  all_goals rfl

/-- An operator does not look into functions, classes and objects, and yields none. -/
theorem apply_erase (op : BinaryOp) (l r : Value) :
    apply op l.erase r.erase = (apply op l r).map (·.erase) := by
  refine apply_map Value.kind_erase (fun v datum => ?_) op (equal?_erase l r)
  cases v with
  | integer | double | boolean => rfl
  | _ => cases datum

end Operation

end ClassScript
