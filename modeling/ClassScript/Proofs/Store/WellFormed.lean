import ClassScript.Interpreter

/-! # Well-formed stores

What holds of the store of a running program at all times (`Store.WellFormed`), and how a store may
change from one moment to a later one (`Store.Extends`).  Scopes are never dropped, variables keep their
names and types, and a variable with a value keeps having one.  Which tables may get new variables is a
parameter.  Each of the three ways to change a store (a new scope, a new variable, an assignment) keeps
the store well-formed and extends it.
-/

namespace ClassScript

/-! ## Values in a store -/

/-- The class belongs to the store: its member scope is a scope of it, its functions close over that
    scope and have names of their own. -/
structure ClassValue.Held (s : Store) (c : ClassValue) : Prop where
  members : c.members ∈ s.scopes
  closures : ∀ f ∈ c.prototype, f.closure = c.members
  distinct : (c.prototype.map (·.name)).Nodup

/-- The object belongs to the store: its scope is a scope of it and lies in the member scope of its
    class. -/
structure ObjectValue.Held (s : Store) (o : ObjectValue) : Prop where
  blueprint : o.blueprint.Held s
  scope : o.scope ∈ s.scopes
  parent : o.scope.parent? = some o.blueprint.members

/-- The slot belongs to the store: it is a variable of its table, or a function that closes over a scope
    of the store. -/
def Slot.Held (s : Store) : Slot → Prop
  | .stored table name => (s.table table).has name
  | .method f => f.closure ∈ s.scopes

/-- The value belongs to the store: every scope in it is one of the store. -/
def Value.Held (s : Store) : Value → Prop
  | .function f => f.closure ∈ s.scopes
  | .blueprint c => c.Held s
  | .object o => o.Held s
  | .slot found => found.Held s
  | _ => True

/-- What is stored: a value that belongs to the store and is not a variable itself. -/
def Value.Kept (s : Store) (v : Value) : Prop := v.isPlain ∧ v.Held s

/-! ## Tables over time -/

namespace Table

theorem has_iff {t : Table} {name : String} : t.has name ↔ name ∈ t.names := by
  simp [has, get?, names, List.find?_isSome]

theorem get?_of_mem {t : Table} (distinct : t.names.Nodup) {v : Variable} (member : v ∈ t) :
    t.get? v.name = some v := by
  induction t with
  | nil => cases member
  | cons first rest ih =>
    obtain ⟨apart, distinct⟩ := List.nodup_cons.1 distinct
    rcases List.mem_cons.1 member with rfl | member
    · simp [get?]
    · have other : first.name ≠ v.name := fun same =>
        apart (List.mem_map.2 ⟨v, member, same.symm⟩)
      rw [get?, List.find?_cons_of_neg (by simpa using other)]
      exact ih distinct member

theorem mem_of_get? {t : Table} {name : String} {v : Variable} (found : t.get? name = some v) :
    v ∈ t ∧ v.name = name :=
  ⟨List.mem_of_find?_eq_some found, by simpa using List.find?_some found⟩

/-- How a table may change: its variables stay, with their names, types and order; one that has a value
    keeps having one; and new ones may come only if the table may grow. -/
structure Evolves (grows : Prop) (t t' : Table) : Prop where
  names : t.names <+: t'.names
  same : ¬ grows → t'.names = t.names
  stays : ∀ v ∈ t, ∃ v' ∈ t', v'.name = v.name ∧ v'.type = v.type ∧ (v.value.isSome → v'.value.isSome)

namespace Evolves

variable {grows grows' : Prop} {t t' t'' : Table}

theorem refl (t : Table) : t.Evolves grows t :=
  ⟨List.prefix_rfl, fun _ => rfl, fun v member => ⟨v, member, rfl, rfl, id⟩⟩

theorem trans (first : t.Evolves grows t') (second : t'.Evolves grows t'') : t.Evolves grows t'' where
  names := first.names.trans second.names
  same := fun fixed => (second.same fixed).trans (first.same fixed)
  stays := by
    intro v member
    obtain ⟨v', member', name', type', value'⟩ := first.stays v member
    obtain ⟨v'', member'', name'', type'', value''⟩ := second.stays v' member'
    exact ⟨v'', member'', name''.trans name', type''.trans type', value'' ∘ value'⟩

theorem mono (change : t.Evolves grows t') (may : grows → grows') : t.Evolves grows' t' :=
  ⟨change.names, fun fixed => change.same (mt may fixed), change.stays⟩

theorem has (change : t.Evolves grows t') {name : String} (there : t.has name) : t'.has name :=
  has_iff.2 (change.names.subset (has_iff.1 there))

end Evolves

@[simp] theorem names_add (t : Table) (name : String) (type : DeclaredType) :
    (t.add name type).names = t.names ++ [name] := by
  simp [add, names]

@[simp] theorem names_assign (t : Table) (name : String) (value : Value) :
    (t.assign name value).names = t.names := by
  simp only [assign, names, List.map_map, List.map_inj_left, Function.comp_apply]
  intro v _
  split <;> rfl

theorem has_congr {t t' : Table} (same : t'.names = t.names) (name : String) : t'.has name = t.has name := by
  rw [Bool.eq_iff_iff, has_iff, has_iff, same]

theorem get?_add (t : Table) (name other : String) (type : DeclaredType) :
    (t.add name type).get? other = (t.get? other).or (if name = other then some ⟨name, type, none⟩ else none) := by
  rw [get?, add, List.find?_append, List.find?_singleton]
  simp only [get?, decide_eq_true_eq]

theorem get?_assign (t : Table) (name other : String) (value : Value) :
    (t.assign name value).get? other =
      if other = name then (t.get? name).map fun v => { v with value := some value } else t.get? other := by
  induction t with
  | nil => simp [assign, get?]
  | cons v rest ih =>
    simp only [assign, get?, List.map_cons, List.find?_cons] at ih ⊢
    by_cases isName : v.name = name
    · by_cases same : other = name
      · simp [isName, same]
      · have differs : name ≠ other := fun is => same is.symm
        simp [isName, differs, same, ih]
    · by_cases isOther : v.name = other
      · have differs : other ≠ name := fun is => isName (isOther.trans is)
        simp [isOther, differs]
      · simp [isName, isOther, ih]

theorem evolves_add (t : Table) (name : String) (type : DeclaredType) :
    t.Evolves True (t.add name type) where
  names := ⟨[name], (names_add t name type).symm⟩
  same := fun fixed => absurd trivial fixed
  stays := fun v member => ⟨v, List.mem_append_left _ member, rfl, rfl, id⟩

theorem evolves_assign (t : Table) (name : String) (value : Value) :
    t.Evolves False (t.assign name value) where
  names := ⟨[], by rw [names_assign, List.append_nil]⟩
  same := fun _ => names_assign t name value
  stays := by
    intro v member
    refine ⟨_, List.mem_map_of_mem member, ?_⟩
    split
    · exact ⟨rfl, rfl, fun _ => rfl⟩
    · exact ⟨rfl, rfl, id⟩

end Table

/-! ## Stores over time -/

namespace Store

/-- How a store may change: its scopes stay, and its tables change as tables may. -/
structure Extends (own : TableId → Prop) (s s' : Store) : Prop where
  scopes : ∀ (i : Nat) (scope : Scope), s.scopes[i]? = some scope → s'.scopes[i]? = some scope
  tables : ∀ id < s.tables.size, (s.table id).Evolves (own id) (s'.table id)
  size : s.tables.size ≤ s'.tables.size

namespace Extends

variable {own own' : TableId → Prop} {s s' s'' : Store}

theorem refl (s : Store) : s.Extends own s :=
  ⟨fun _ _ => id, fun _ _ => .refl _, Nat.le_refl _⟩

theorem trans (first : s.Extends own s') (second : s'.Extends own s'') : s.Extends own s'' where
  scopes := fun i scope placed => second.scopes i scope (first.scopes i scope placed)
  tables := fun id bound =>
    (first.tables id bound).trans (second.tables id (Nat.lt_of_lt_of_le bound first.size))
  size := Nat.le_trans first.size second.size

theorem mono (change : s.Extends own s') (may : ∀ id < s.tables.size, own id → own' id) :
    s.Extends own' s' :=
  ⟨change.scopes, fun id bound => (change.tables id bound).mono (may id bound), change.size⟩

theorem mem (change : s.Extends own s') {scope : Scope} (member : scope ∈ s.scopes) :
    scope ∈ s'.scopes := by
  obtain ⟨i, placed⟩ := Array.mem_iff_getElem?.1 member
  exact Array.mem_iff_getElem?.2 ⟨i, change.scopes i scope placed⟩

theorem has (change : s.Extends own s') {id : TableId} {name : String}
    (there : (s.table id).has name) : (s'.table id).has name := by
  rcases Nat.lt_or_ge id s.tables.size with bound | beyond
  · exact (change.tables id bound).has there
  · rw [table, Array.getElem?_eq_none beyond] at there
    cases there

theorem heldClass (change : s.Extends own s') {c : ClassValue} (held : c.Held s) : c.Held s' :=
  ⟨change.mem held.members, held.closures, held.distinct⟩

theorem heldObject (change : s.Extends own s') {o : ObjectValue} (held : o.Held s) : o.Held s' :=
  ⟨change.heldClass held.blueprint, change.mem held.scope, held.parent⟩

theorem heldSlot (change : s.Extends own s') {slot : Slot} (held : slot.Held s) : slot.Held s' := by
  cases slot with
  | stored => exact change.has held
  | method => exact change.mem held

/-- A value that belongs to the store still belongs to it later. -/
theorem held (change : s.Extends own s') {v : Value} (held : v.Held s) : v.Held s' := by
  cases v with
  | function => exact change.mem held
  | blueprint => exact change.heldClass held
  | object => exact change.heldObject held
  | slot => exact change.heldSlot held
  | _ => trivial

theorem kept (change : s.Extends own s') {v : Value} (kept : v.Kept s) : v.Kept s' :=
  ⟨kept.1, change.held kept.2⟩

end Extends

/-! ## Well-formedness -/

/-- The store is well-formed: its scopes are numbered in order and each has the table of its number to
    itself; each scope but the first, which is the root, lies in an earlier one; no table has a name
    twice; and what the variables hold are values that belong to the store. -/
structure WellFormed (root : Scope) (s : Store) : Prop where
  size : s.tables.size = s.scopes.size
  placed : ∀ (i : Nat) (scope : Scope), s.scopes[i]? = some scope → scope.frame = ⟨i, i⟩
  rooted : root ∈ s.scopes ∧ root.parent? = none
  parents : ∀ scope ∈ s.scopes, scope ≠ root →
    ∃ outer ∈ s.scopes, scope.parent? = some outer ∧ outer.table < scope.table
  distinct : ∀ t ∈ s.tables, t.names.Nodup
  kept : ∀ t ∈ s.tables, ∀ v ∈ t, ∀ x ∈ v.value, x.Kept s

/-- What a stored slot holds is the value of a variable of its table. -/
theorem mem_of_entry {s : Store} {id : TableId} {name : String} {x : Value}
    (found : (s.entry (.stored id name)).value = some x) : ∃ v ∈ s.table id, v.value = some x := by
  rw [entry] at found
  cases get : (s.table id).get? name with
  | none =>
    rw [get] at found
    cases found
  | some v =>
    rw [get] at found
    exact ⟨v, (Table.mem_of_get? get).1, found⟩

/-- What is read from a slot is what it holds. -/
theorem entry_of_read {s : Store} {slot : Slot} {x : Value} (found : s.read slot = .ok x) :
    (s.entry slot).value = some x := by
  rw [read] at found
  cases holds : (s.entry slot).value with
  | none =>
    simp only [holds] at found
    cases found
  | some y =>
    simp only [holds] at found
    cases found
    rfl

namespace WellFormed

variable {root : Scope} {s : Store}

theorem table_lt (sound : s.WellFormed root) {scope : Scope} (member : scope ∈ s.scopes) :
    scope.table < s.tables.size := by
  obtain ⟨i, placed⟩ := Array.mem_iff_getElem?.1 member
  rw [Scope.table, sound.placed i scope placed, sound.size]
  exact (Array.getElem?_eq_some_iff.1 placed).1

theorem table_mem (sound : s.WellFormed root) {scope : Scope} (member : scope ∈ s.scopes) :
    s.declared scope ∈ s.tables := by
  have bound := sound.table_lt member
  rw [declared, table, Array.getElem?_eq_getElem bound]
  exact Array.getElem_mem bound

/-- No two scopes have one table. -/
theorem eq_of_table (sound : s.WellFormed root) {scope other : Scope} (member : scope ∈ s.scopes)
    (there : other ∈ s.scopes) (same : scope.table = other.table) : scope = other := by
  obtain ⟨i, placed⟩ := Array.mem_iff_getElem?.1 member
  obtain ⟨j, placed'⟩ := Array.mem_iff_getElem?.1 there
  rw [Scope.table, Scope.table, sound.placed i scope placed, sound.placed j other placed'] at same
  subst same
  exact Option.some.inj (placed.symm.trans placed')

/-- A table with a name is that of a scope. -/
theorem exists_scope (sound : s.WellFormed root) {id : TableId} {name : String}
    (there : (s.table id).has name) : ∃ scope ∈ s.scopes, scope.table = id := by
  rcases Nat.lt_or_ge id s.scopes.size with bound | beyond
  · have placed := Array.getElem?_eq_getElem bound
    refine ⟨s.scopes[id], Array.getElem_mem bound, ?_⟩
    rw [Scope.table, sound.placed id _ placed]
  · rw [table, Array.getElem?_eq_none (sound.size ▸ beyond)] at there
    cases there

theorem table_mem_or_nil (s : Store) (id : TableId) : s.table id ∈ s.tables ∨ s.table id = [] := by
  rw [table]
  cases placed : s.tables[id]? with
  | none => exact .inr rfl
  | some t => exact .inl (Array.mem_of_getElem? placed)

theorem table_distinct (sound : s.WellFormed root) (id : TableId) : (s.table id).names.Nodup := by
  rcases table_mem_or_nil s id with member | empty
  · exact sound.distinct _ member
  · rw [empty]
    exact List.nodup_nil

theorem mem_table (sound : s.WellFormed root) {id : TableId} {v : Variable} (member : v ∈ s.table id)
    {x : Value} (found : v.value = some x) : x.Kept s := by
  rcases table_mem_or_nil s id with there | empty
  · exact sound.kept _ there v member x found
  · rw [empty] at member
    cases member

/-- What a slot holds is a value that belongs to the store. -/
theorem entry_kept (sound : s.WellFormed root) {slot : Slot} (held : slot.Held s) {x : Value}
    (found : (s.entry slot).value = some x) : x.Kept s := by
  cases slot with
  | stored id name =>
    obtain ⟨v, here, value⟩ := mem_of_entry found
    exact sound.mem_table here value
  | method f =>
    cases found
    exact ⟨rfl, held⟩

theorem read_kept (sound : s.WellFormed root) {slot : Slot} (held : slot.Held s) {x : Value}
    (found : s.read slot = .ok x) : x.Kept s :=
  sound.entry_kept held (entry_of_read found)

theorem plain_kept (sound : s.WellFormed root) {v : Value} (held : v.Held s) {x : Value}
    (found : s.plain v = .ok x) : x.Kept s := by
  cases v with
  | slot slot => exact sound.read_kept held found
  | _ =>
    cases found
    exact ⟨rfl, held⟩

theorem storable_kept (sound : s.WellFormed root) {v : Value} (held : v.Held s) :
    (s.storable v).Kept s := by
  cases v with
  | slot slot =>
    rw [storable]
    cases holds : (s.entry slot).value with
    | none => exact ⟨rfl, trivial⟩
    | some y => exact sound.entry_kept held holds
  | _ => exact ⟨rfl, held⟩

end WellFormed

/-! ## Asking a store -/

theorem held_of_resolveIn {s : Store} {name : String} {frames : List Frame} {slot : Slot}
    (found : s.resolveIn name frames = some slot) : slot.Held s := by
  induction frames with
  | nil => cases found
  | cons frame rest ih =>
    rw [resolveIn] at found
    split at found
    case isTrue there =>
      cases found
      exact there
    case isFalse => exact ih found

/-- A name means a variable of a table. -/
theorem stored_of_lookup {s : Store} {scope : Scope} {name : String} {slot : Slot}
    (found : s.lookup scope name = .ok slot) : ∃ id, slot = .stored id name := by
  have stored {frames : List Frame} (resolved : s.resolveIn name frames = some slot) :
      ∃ id, slot = .stored id name := by
    induction frames with
    | nil => cases resolved
    | cons frame rest ih =>
      rw [resolveIn] at resolved
      split at resolved
      · cases resolved
        exact ⟨_, rfl⟩
      · exact ih resolved
  rw [lookup] at found
  split at found
  case h_1 resolved =>
    cases found
    exact stored resolved
  case h_2 => cases found

theorem held_of_lookup {s : Store} {scope : Scope} {name : String} {slot : Slot}
    (found : s.lookup scope name = .ok slot) : slot.Held s := by
  rw [lookup] at found
  split at found
  case h_1 resolved =>
    cases found
    exact held_of_resolveIn resolved
  case h_2 => cases found

/-- A member of a class is a variable of its member scope. -/
theorem eq_stored_of_classMember {s : Store} {c : ClassValue} {name : String} {slot : Slot}
    (found : s.classMember c name = .ok slot) : slot = .stored c.members.table name := by
  rw [classMember] at found
  split at found
  · cases found
    rfl
  · cases found

theorem held_of_classMember {s : Store} {c : ClassValue} {name : String} {slot : Slot}
    (found : s.classMember c name = .ok slot) : slot.Held s := by
  rw [classMember] at found
  split at found
  case h_1 get =>
    cases found
    rw [Slot.Held, Table.has]
    exact Option.isSome_of_eq_some get
  case h_2 => cases found

/-- A member of an object is a variable of its own, a function of its class bound to it, or a member of its class. -/
theorem objectMember_cases {s : Store} {o : ObjectValue} {name : String} {slot : Slot}
    (found : s.objectMember o name = .ok slot) :
    (slot = .stored o.scope.table name ∧ slot.Held s) ∨
      (∃ f ∈ o.blueprint.prototype, f.name = name ∧ slot = .method (f.bind o.scope)) ∨
      s.classMember o.blueprint name = .ok slot := by
  rw [objectMember] at found
  split at found
  case isTrue there =>
    cases found
    exact .inl ⟨rfl, there⟩
  case isFalse =>
    split at found
    case h_1 f method =>
      cases found
      exact .inr (.inl ⟨f, List.mem_of_find?_eq_some method, by simpa using List.find?_some method, rfl⟩)
    case h_2 => exact .inr (.inr found)

theorem held_of_objectMember {s : Store} {o : ObjectValue} (held : o.Held s) {name : String}
    {slot : Slot} (found : s.objectMember o name = .ok slot) : slot.Held s := by
  rcases objectMember_cases found with ⟨-, own⟩ | ⟨f, -, -, rfl⟩ | static
  · exact own
  · exact held.scope
  · exact held_of_classMember static

/-! ## Changing a store -/

theorem table_modifyTable (s : Store) (id id' : TableId) (f : Table → Table) :
    (s.modifyTable id f).table id' =
      if id = id' ∧ id < s.tables.size then f (s.table id) else s.table id' := by
  simp only [modifyTable, table, Array.getElem?_modify]
  by_cases same : id = id'
  · subst same
    by_cases bound : id < s.tables.size
    · simp [bound]
    · simp [bound]
  · simp [same]

theorem mem_modifyTable {s : Store} {id : TableId} {f : Table → Table} {t : Table}
    (member : t ∈ (s.modifyTable id f).tables) : t ∈ s.tables ∨ t = f (s.table id) := by
  obtain ⟨i, bound, rfl⟩ := Array.mem_iff_getElem.1 member
  simp only [modifyTable, Array.getElem_modify] at bound ⊢
  rw [Array.size_modify] at bound
  split
  case isTrue same =>
    subst same
    rw [table, Array.getElem?_eq_getElem bound]
    exact .inr rfl
  case isFalse => exact .inl (Array.getElem_mem bound)

/-- Changing a table as tables may change extends the store. -/
theorem extends_modifyTable {s : Store} {id : TableId} {f : Table → Table} {own : TableId → Prop}
    (change : (s.table id).Evolves (own id) (f (s.table id))) : s.Extends own (s.modifyTable id f) where
  scopes := fun _ _ placed => placed
  size := by simp [modifyTable]
  tables := by
    intro id' bound
    rw [table_modifyTable]
    split
    case isTrue same => exact same.1 ▸ change
    case isFalse => exact .refl _

theorem WellFormed.modifyTable {root : Scope} {s : Store} (sound : s.WellFormed root) {id : TableId}
    {f : Table → Table} {own : TableId → Prop} (grown : s.Extends own (s.modifyTable id f))
    (distinct : (f (s.table id)).names.Nodup)
    (kept : ∀ v ∈ f (s.table id), v ∈ s.table id ∨ ∀ x ∈ v.value, x.Kept s) :
    (s.modifyTable id f).WellFormed root where
  size := by simpa [Store.modifyTable] using sound.size
  placed := sound.placed
  rooted := sound.rooted
  parents := sound.parents
  distinct := by
    intro t member
    rcases mem_modifyTable member with old | rfl
    · exact sound.distinct t old
    · exact distinct
  kept := by
    intro t member v here x found
    refine grown.kept ?_
    rcases mem_modifyTable member with old | rfl
    · exact sound.kept t old v here x found
    · rcases kept v here with before | fresh
      · exact sound.mem_table before found
      · exact fresh x found

theorem table_of_size_le {s : Store} {id : TableId} (beyond : s.tables.size ≤ id) : s.table id = [] := by
  rw [table, Array.getElem?_eq_none beyond]
  rfl

theorem table_grow (s : Store) (inner : Scope) (id : TableId) : (s.grow inner).table id = s.table id := by
  by_cases last : id = s.tables.size
  · rw [last, table_of_size_le (Nat.le_refl _), table, grow, Array.getElem?_push, if_pos rfl]
    rfl
  · rw [table, table, grow, Array.getElem?_push, if_neg last]

theorem table_modifyTable_assign (s : Store) (id : TableId) (name : String) (v : Value) (id' : TableId) :
    (s.modifyTable id (·.assign name v)).table id' =
      if id' = id then (s.table id).assign name v else s.table id' := by
  rw [table_modifyTable]
  by_cases same : id = id'
  · subst same
    rcases Nat.lt_or_ge id s.tables.size with bound | beyond
    · rw [if_pos ⟨rfl, bound⟩, if_pos rfl]
    · rw [if_neg fun is => Nat.not_lt_of_le beyond is.2, if_pos rfl, table_of_size_le beyond]
      rfl
  · rw [if_neg fun is => same is.1, if_neg fun is => same is.symm]

theorem names_modifyTable_assign (s : Store) (id : TableId) (name : String) (v : Value) (id' : TableId) :
    ((s.modifyTable id (·.assign name v)).table id').names = (s.table id').names := by
  rw [table_modifyTable_assign]
  split
  case isTrue same => rw [same, Table.names_assign]
  case isFalse => rfl

theorem get?_modifyTable_assign (s : Store) (id : TableId) (name : String) (v : Value) (id' : TableId)
    (name' : String) : ((s.modifyTable id (·.assign name v)).table id').get? name' =
      if id' = id ∧ name' = name then ((s.table id').get? name').map fun w => { w with value := some v }
      else (s.table id').get? name' := by
  rw [table_modifyTable_assign]
  by_cases same : id' = id
  · subst same
    rw [if_pos rfl, Table.get?_assign]
    by_cases named : name' = name
    · rw [if_pos named, if_pos ⟨rfl, named⟩, named]
    · rw [if_neg named, if_neg fun is => named is.2]
  · rw [if_neg same, if_neg fun is => same is.1]

/-- A new scope extends the store. -/
theorem extends_grow (s : Store) (inner : Scope) : s.Extends (fun _ => False) (s.grow inner) where
  scopes := by
    intro i scope placed
    have bound := (Array.getElem?_eq_some_iff.1 placed).1
    rw [grow, Array.getElem?_push, if_neg (Nat.ne_of_lt bound)]
    exact placed
  tables := by
    intro id _
    rw [table_grow]
    exact .refl _
  size := by simp [grow]

section Steps

variable {root : Scope} {s : Store} (sound : s.WellFormed root)

include sound

/-- A name that is free in a scope can be declared in it. -/
theorem WellFormed.declare {scope : Scope} (member : scope ∈ s.scopes) {name : String}
    (free : (s.declared scope).has name = false) (type : DeclaredType) :
    let s' := s.modifyTable scope.table (·.add name type)
    s'.WellFormed root ∧ s.Extends (· = scope.table) s' ∧
      (Slot.stored scope.table name).Held s' := by
  have grown : s.Extends (· = scope.table) (s.modifyTable scope.table (·.add name type)) :=
    extends_modifyTable ((Table.evolves_add _ name type).mono fun _ => rfl)
  have absent : name ∉ (s.table scope.table).names := fun there => by
    rw [declared, Table.has_iff.2 there] at free
    cases free
  refine ⟨sound.modifyTable grown ?_ ?_, grown, ?_⟩
  · rw [Table.names_add]
    exact List.nodup_append.2 ⟨sound.table_distinct _, by simp,
      fun a there b here => fun same => absent (List.mem_singleton.1 here ▸ same ▸ there)⟩
  · intro v there
    rcases List.mem_append.1 there with old | new
    · exact .inl old
    · rw [List.mem_singleton.1 new]
      exact .inr fun x found => nomatch found
  · rw [Slot.Held, table_modifyTable, if_pos ⟨rfl, sound.table_lt member⟩, Table.has_iff,
      Table.names_add]
    exact List.mem_append_right _ (List.mem_singleton_self name)

/-- A value that belongs to the store can be assigned. -/
theorem WellFormed.write (slot : Slot) {v : Value} (held : v.Held s) :
    (s.write slot v).WellFormed root ∧ s.Extends (fun _ => False) (s.write slot v) := by
  cases slot with
  | stored id name =>
    have grown : s.Extends (fun _ => False) (s.modifyTable id (·.assign name (s.storable v))) :=
      extends_modifyTable (Table.evolves_assign (s.table id) name (s.storable v))
    refine ⟨sound.modifyTable grown ?_ ?_, grown⟩
    · rw [Table.names_assign]
      exact sound.table_distinct id
    · intro w there
      obtain ⟨u, old, rfl⟩ := List.mem_map.1 there
      split
      · refine .inr fun x found => ?_
        cases found
        exact sound.storable_kept held
      · exact .inl old
  | method f => exact ⟨sound, .refl s⟩

/-- A scope can be made within any scope. -/
theorem WellFormed.grow {scope : Scope} (member : scope ∈ s.scopes) :
    let inner := s.inner (some scope)
    (s.grow inner).WellFormed root ∧ s.Extends (fun _ => False) (s.grow inner) ∧
      inner ∈ (s.grow inner).scopes ∧ inner.parent? = some scope ∧ inner.table = s.tables.size := by
  intro inner
  have grown := extends_grow s inner
  refine ⟨⟨?_, ?_, ?_, ?_, ?_, ?_⟩, grown, by simp [Store.grow], rfl, rfl⟩
  · simpa [Store.grow] using sound.size
  · intro i other placed
    rw [Store.grow, Array.getElem?_push] at placed
    split at placed
    case isTrue last =>
      cases placed
      rw [last, show inner.frame = ⟨s.scopes.size, s.tables.size⟩ from rfl, sound.size]
    case isFalse => exact sound.placed i other placed
  · exact ⟨grown.mem sound.rooted.1, sound.rooted.2⟩
  · intro other there proper
    rcases Array.mem_push.1 there with old | rfl
    · obtain ⟨outer, outside, is, before⟩ := sound.parents other old proper
      exact ⟨outer, grown.mem outside, is, before⟩
    · exact ⟨scope, grown.mem member, rfl, sound.table_lt member⟩
  · intro t there
    rcases Array.mem_push.1 there with old | rfl
    · exact sound.distinct t old
    · exact List.nodup_nil
  · intro t there v here x found
    rcases Array.mem_push.1 there with old | rfl
    · exact grown.kept (sound.kept t old v here x found)
    · cases here

end Steps

end Store

/-! ## Chains of scopes -/

namespace Scope

def chainOf : Frame → List Frame → List Scope
  | frame, [] => [⟨frame, []⟩]
  | frame, outer :: rest => ⟨frame, outer :: rest⟩ :: chainOf outer rest

def chain (s : Scope) : List Scope := chainOf s.frame s.enclosing

theorem chain_of_none {s : Scope} (outermost : s.parent? = none) : s.chain = [s] := by
  obtain ⟨frame, _ | ⟨outer, rest⟩⟩ := s
  · rfl
  · cases outermost

theorem chain_of_some {s outer : Scope} (parent : s.parent? = some outer) :
    s.chain = s :: outer.chain := by
  obtain ⟨frame, _ | ⟨outer', rest⟩⟩ := s
  · cases parent
  · cases parent
    rfl

theorem frames_eq (s : Scope) : s.frames = s.chain.map frame := by
  have chained (frame : Frame) (rest : List Frame) : (chainOf frame rest).map Scope.frame = frame :: rest := by
    induction rest generalizing frame with
    | nil => rfl
    | cons outer rest ih => rw [chainOf, List.map_cons, ih]
  exact (chained s.frame s.enclosing).symm

end Scope

/-- The scopes around a scope were made before it, one after another from the root on. -/
theorem Store.WellFormed.chain {root : Scope} {s : Store} (sound : s.WellFormed root) {scope : Scope}
    (member : scope ∈ s.scopes) :
    scope.chain.Nodup ∧ (∀ outer ∈ scope.chain, outer ∈ s.scopes ∧ outer.table ≤ scope.table) ∧
      scope.chain.getLast? = some root := by
  induction size : scope.table using Nat.strongRecOn generalizing scope with
  | ind n ih =>
    subst size
    by_cases outermost : scope = root
    · subst outermost
      rw [Scope.chain_of_none sound.rooted.2]
      simp [member]
    · obtain ⟨outer, outside, parent, before⟩ := sound.parents scope member outermost
      obtain ⟨distinct, inside, last⟩ := ih _ before outside rfl
      rw [Scope.chain_of_some parent]
      refine ⟨List.nodup_cons.2 ⟨?_, distinct⟩, List.forall_mem_cons.2 ⟨⟨member, Nat.le_refl _⟩, ?_⟩, ?_⟩
      · intro there
        exact absurd (inside scope there).2 (Nat.not_le_of_lt before)
      · exact fun other there =>
          ⟨(inside other there).1, Nat.le_trans (inside other there).2 (Nat.le_of_lt before)⟩
      · rw [List.getLast?_cons, last]
        rfl

/-- All frames of a scope have numbers of the store. -/
theorem Store.WellFormed.frame_eq {root scope : Scope} {s : Store} (sound : s.WellFormed root)
    (here : scope ∈ s.scopes) : ∀ frame ∈ scope.frames, ∃ id < s.tables.size, frame = ⟨id, id⟩ := by
  rw [Scope.frames_eq]
  intro frame member
  obtain ⟨outer, there, rfl⟩ := List.mem_map.1 member
  have member' := ((sound.chain here).2.1 outer there).1
  obtain ⟨i, placed⟩ := Array.mem_iff_getElem?.1 member'
  have bound := sound.table_lt member'
  rw [Scope.table, sound.placed i outer placed] at bound
  exact ⟨i, bound, sound.placed i outer placed⟩

theorem Store.WellFormed.frame_lt {root scope : Scope} {s : Store} (sound : s.WellFormed root)
    (here : scope ∈ s.scopes) : ∀ frame ∈ scope.frames, frame.table < s.tables.size := by
  intro frame member
  obtain ⟨id, bound, rfl⟩ := sound.frame_eq here frame member
  exact bound

/-! ## Operators -/

def Value.isDatum : Value → Bool
  | .integer _ | .double _ | .boolean _ => true
  | _ => false

theorem Value.isDatum_congr {v v' : Value} (kind : v'.kind = v.kind) : v'.isDatum = v.isDatum := by
  cases v <;> cases v' <;> first | rfl | cases kind

namespace Operation

variable {op : BinaryOp} {l r v : Value}

theorem isDatum_of_arithmetic (found : arithmetic op l r = .ok v) : v.isDatum := by
  rw [arithmetic] at found
  split at found
  · cases found
    rfl
  · split at found
    · cases found
      rfl
    · cases found

theorem isDatum_of_compare (found : compare op l r = .ok v) : v.isDatum := by
  rw [compare.eq_def] at found
  split at found
  · cases found
    rfl
  · split at found
    · split at found <;>
      · cases found
        rfl
    · cases found

theorem isDatum_of_logical (found : logical op l r = .ok v) : v.isDatum := by
  rw [logical.eq_def] at found
  split at found
  · cases found
    rfl
  · cases found

theorem isDatum_of_apply (found : apply op l r = .ok v) : v.isDatum := by
  cases op with
  | add | sub | mul | div | pow => exact isDatum_of_arithmetic found
  | bigger | smaller | biggerEqual | smallerEqual => exact isDatum_of_compare found
  | and | or => exact isDatum_of_logical found
  | equal =>
    rw [apply] at found
    split at found
    · cases found
      rfl
    · cases found
  | unknown => cases found

/-- What an operator yields can be stored anywhere. -/
theorem kept_of_apply (s : Store) (found : apply op l r = .ok v) : v.Kept s := by
  have datum := isDatum_of_apply found
  cases v with
  | integer | double | boolean => exact ⟨rfl, trivial⟩
  | _ => cases datum

/-- Only equality takes anything but numbers and truth values. -/
theorem apply_of_not_isDatum (other : op ≠ .equal)
    (strange : l.isDatum = false ∨ r.isDatum = false) : apply op l r = mismatch op l r := by
  have arithmetics : arithmetic op l r = mismatch op l r := by
    cases l <;> cases r <;> first | rfl | (rcases strange with left | right <;> contradiction)
  have comparison : compare op l r = mismatch op l r := by
    cases l <;> cases r <;> first | rfl | (rcases strange with left | right <;> contradiction)
  have logic : logical op l r = mismatch op l r := by
    cases l <;> cases r <;> first | rfl | (rcases strange with left | right <;> contradiction)
  cases op with
  | add | sub | mul | div | pow => exact arithmetics
  | bigger | smaller | biggerEqual | smallerEqual => exact comparison
  | and | or => exact logic
  | equal => exact absurd rfl other
  | unknown => rfl

/-- An operator sees the sort of an operand, and more of it only if it is a number or a truth value.  Whatever
    leaves these alone can be done to the operands or to the result, unless equality tells the difference. -/
theorem apply_map {f : Value → Value} (kinds : ∀ v, (f v).kind = v.kind)
    (data : ∀ v, v.isDatum → f v = v) (op : BinaryOp)
    (equal : equal? (f l) (f r) = equal? l r) : apply op (f l) (f r) = (apply op l r).map f := by
  have unchanged : (apply op l r).map f = apply op l r := by
    cases found : apply op l r with
    | ok v => exact congrArg Except.ok (data v (isDatum_of_apply found))
    | error fault => rfl
  have mismatched : mismatch op (f l) (f r) = mismatch op l r := by rw [mismatch, mismatch, kinds, kinds]
  rw [unchanged]
  -- Equality alone looks at values that are neither numbers nor truth values.
  by_cases same : op = .equal
  · subst same
    simp only [apply, equal, mismatched]
  · cases left : l.isDatum with
    | false =>
      rw [apply_of_not_isDatum same (.inl left), ← mismatched]
      exact apply_of_not_isDatum same (.inl (Value.isDatum_congr (kinds l) ▸ left))
    | true =>
      cases right : r.isDatum with
      | false =>
        rw [apply_of_not_isDatum same (.inr right), ← mismatched]
        exact apply_of_not_isDatum same (.inr (Value.isDatum_congr (kinds r) ▸ right))
      | true => rw [data l left, data r right]

end Operation

end ClassScript
