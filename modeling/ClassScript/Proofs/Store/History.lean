import ClassScript.Proofs.Store.Code
import ClassScript.Proofs.Syntax.Methods

/-! # Machines and their histories

Functions are told apart by their stamps.  What a stamp says about a function is a matter of how the function came
about, so a machine is looked at together with its history: all functions that were made, in the order of their
stamps, and the scopes of all objects.  A `Chronicle` is a machine with a history that explains it.  Every function in
a variable was made as it is, or it is a method that was made and then bound to an object.  No two functions were made
of one name in one scope, methods and other functions apart: a name is declared only once, and the functions of a
class have different names.
-/

namespace ClassScript

def FunctionValue.isMethod (f : FunctionValue) : Bool := f.modifiers.ofMethod

def FunctionValue.Stems (f : FunctionValue) (d : Node) : Prop :=
  ∃ span, d = .functionDeclaration span f.modifiers f.name f.params f.body

/-- The functions that were made, and the scopes of the objects that were made. -/
structure History where
  made : List FunctionValue
  objects : List Scope

namespace History

/-- Functions that can be there: those that were made, and methods that were made, bound to objects of their
    class. -/
inductive Knows (h : History) : FunctionValue → Prop
  | made {f : FunctionValue} : f ∈ h.made → h.Knows f
  | bound {f : FunctionValue} {scope : Scope} : f ∈ h.made → f.isMethod → scope ∈ h.objects →
      scope.parent? = some f.closure → h.Knows (f.bind scope)

/-- The second history has all that the first one has. -/
structure Includes (h' h : History) : Prop where
  made : ∀ f ∈ h.made, f ∈ h'.made
  objects : ∀ scope ∈ h.objects, scope ∈ h'.objects

def addFunction (h : History) (f : FunctionValue) : History := { h with made := h.made ++ [f] }

def addObject (h : History) (scope : Scope) : History := { h with objects := scope :: h.objects }

variable {h h' h'' : History}

theorem includes_addFunction (h : History) (f : FunctionValue) : (h.addFunction f).Includes h :=
  ⟨fun _ here => List.mem_append_left _ here, fun _ => id⟩

theorem includes_addObject (h : History) (scope : Scope) : (h.addObject scope).Includes h :=
  ⟨fun _ => id, fun _ here => List.mem_cons_of_mem _ here⟩

theorem Includes.refl (h : History) : h.Includes h := ⟨fun _ => id, fun _ => id⟩

theorem Includes.trans (second : h''.Includes h') (first : h'.Includes h) : h''.Includes h :=
  ⟨fun f here => second.made f (first.made f here), fun s here => second.objects s (first.objects s here)⟩

theorem Includes.knows (includes : h'.Includes h) {f : FunctionValue} (knows : h.Knows f) : h'.Knows f := by
  cases knows with
  | made here => exact .made (includes.made _ here)
  | bound here method object parent =>
    exact .bound (includes.made _ here) method (includes.objects _ object) parent

/-- A function that can be there is one that was made, bound to some scope. -/
theorem Knows.exists_made {f : FunctionValue} (knows : h.Knows f) : ∃ g ∈ h.made, f = g.bind f.closure := by
  cases knows with
  | made here => exact ⟨f, here, rfl⟩
  | bound here => exact ⟨_, here, rfl⟩

end History

/-! ## Code -/

variable {part : Node → Prop}

/-- The nodes are those of sorted programs, in which every function has a body. -/
structure Stock (part : Node → Prop) : Prop where
  parts : ∀ n, part n → ∀ n' ∈ n.parts, part n'
  sorts : ∀ n, part n → n.sorts = true
  bodies : ∀ span modifiers name params body, part (.functionDeclaration span modifiers name params body) →
    body.isAbsent = false

def Node.Among (programs : List Node) (n : Node) : Prop := ∃ t ∈ programs, n.Inside t

theorem stock_of_sorted {programs : List Node} (sorted : ∀ t ∈ programs, t.Sorted) :
    Stock (Node.Among programs) where
  parts := by
    rintro n ⟨t, here, inside⟩ n' below
    exact ⟨t, here, inside.part below⟩
  sorts := by
    rintro n ⟨t, here, inside⟩
    exact (sorted t here).sorts n inside
  bodies := by
    rintro span modifiers name params body ⟨t, here, inside⟩
    simpa [Node.bodied] using (sorted t here).bodied _ inside

/-- A node that may be evaluated: one of the program that is no method. -/
structure Node.Evaluable (part : Node → Prop) (n : Node) : Prop where
  code : part n
  plain : n.isMethod = false

/-- What is right below a node other than a class may be evaluated. -/
theorem Stock.evaluable (stock : Stock part) {n : Node} (code : part n)
    (noClass : n.sorts = n.parts.all (!·.isMethod)) : ∀ n' ∈ n.parts, n'.Evaluable part := by
  have sorts := stock.sorts n code
  rw [noClass, List.all_eq_true] at sorts
  exact fun n' here => ⟨stock.parts n code n' here, by simpa using sorts n' here⟩

/-! ## Values with a history -/

/-- The functions of the class are methods that were made in its member scope, and its fields are code. -/
structure ClassValue.Explained (part : Node → Prop) (h : History) (c : ClassValue) : Prop where
  prototype : ∀ f ∈ c.prototype, f ∈ h.made ∧ f.isMethod ∧ f.closure = c.members
  fields : ∀ n ∈ c.fields, n.Evaluable part

structure ObjectValue.Explained (part : Node → Prop) (h : History) (o : ObjectValue) : Prop where
  blueprint : o.blueprint.Explained part h
  scope : o.scope ∈ h.objects
  parent : o.scope.parent? = some o.blueprint.members

def Slot.Explained (h : History) : Slot → Prop
  | .stored _ _ => True
  | .method f => h.Knows f

def Value.Explained (part : Node → Prop) (h : History) : Value → Prop
  | .function f => h.Knows f
  | .blueprint c => c.Explained part h
  | .object o => o.Explained part h
  | .slot found => found.Explained h
  | _ => True

namespace History.Includes

variable {h h' : History} (includes : h'.Includes h)

include includes

theorem explainsClass {c : ClassValue} (explained : c.Explained part h) : c.Explained part h' where
  prototype := fun f here => (explained.prototype f here).imp_left (includes.made f)
  fields := explained.fields

theorem explains {v : Value} (explained : v.Explained part h) : v.Explained part h' := by
  cases v with
  | function f => exact includes.knows explained
  | blueprint c => exact includes.explainsClass explained
  | object o =>
    exact ⟨includes.explainsClass explained.blueprint, includes.objects _ explained.scope, explained.parent⟩
  | slot slot =>
    cases slot with
    | stored => trivial
    | method f => exact includes.knows explained
  | _ => trivial

end History.Includes

/-! ## Reading -/

namespace Store

variable {h : History} {s : Store}

theorem explained_of_read (holds : s.Holds (·.Explained part h)) {slot : Slot} (explained : slot.Explained h)
    {v : Value} (found : s.read slot = .ok v) : v.Explained part h := by
  have value := entry_of_read found
  cases slot with
  | stored => exact holds.stored value
  | method f =>
    cases value
    exact explained

theorem explained_of_plain (holds : s.Holds (·.Explained part h)) {v x : Value} (explained : v.Explained part h)
    (found : s.plain v = .ok x) : x.Explained part h := by
  cases v with
  | slot slot => exact explained_of_read holds explained found
  | _ =>
    cases found
    exact explained

theorem explained_storable (holds : s.Holds (·.Explained part h)) {v : Value} (explained : v.Explained part h) :
    (s.storable v).Explained part h := by
  cases v with
  | slot slot =>
    rw [storable]
    cases value : (s.entry slot).value with
    | none => trivial
    | some x =>
      cases slot with
      | stored => exact holds.stored value
      | method f =>
        cases value
        exact explained
  | _ => exact explained

theorem explained_of_lookup {scope : Scope} {name : String} {slot : Slot} (found : s.lookup scope name = .ok slot) :
    slot.Explained h := by
  obtain ⟨id, rfl⟩ := stored_of_lookup found
  trivial

theorem explained_of_classMember {c : ClassValue} {name : String} {slot : Slot}
    (found : s.classMember c name = .ok slot) : slot.Explained h := by
  rw [eq_stored_of_classMember found]
  trivial

/-- A method that is read from an object is bound to it. -/
theorem explained_of_objectMember {o : ObjectValue} (explained : o.Explained part h) {name : String} {slot : Slot}
    (found : s.objectMember o name = .ok slot) : slot.Explained h := by
  rcases objectMember_cases found with ⟨rfl, -⟩ | ⟨f, method, -, rfl⟩ | static
  · trivial
  · obtain ⟨made, isMethod, closure⟩ := explained.blueprint.prototype f method
    exact .bound made isMethod explained.scope (by rw [closure, explained.parent])
  · exact explained_of_classMember static

/-- A method comes from an object as a function of the class, bound to the object. -/
theorem exists_of_objectMember {o : ObjectValue} {name : String} {f : FunctionValue}
    (found : s.objectMember o name = .ok (.method f)) :
    ∃ g ∈ o.blueprint.prototype, g.name = name ∧ f = g.bind o.scope := by
  rcases objectMember_cases found with ⟨own, -⟩ | ⟨g, method, named, bound⟩ | static
  · cases own
  · exact ⟨g, method, named, Slot.method.inj bound⟩
  · cases eq_stored_of_classMember static

/-! ## Writing -/

theorem extends_assign (s : Store) (id : TableId) (name : String) (v : Value) :
    s.Extends (fun _ => False) (s.modifyTable id (·.assign name v)) :=
  extends_modifyTable (Table.evolves_assign _ name v)

theorem extends_add (s : Store) (id : TableId) (name : String) (type : DeclaredType) :
    s.Extends (fun _ => True) (s.modifyTable id (·.add name type)) :=
  extends_modifyTable (Table.evolves_add _ name type)

end Store

/-! ## Chronicles -/

/-- A machine and a history that explains it. -/
structure Chronicle (part : Node → Prop) where
  machine : Machine
  history : History
  /-- Stamps are handed out in order. -/
  count : history.made.length = machine.stamps
  stamped : ∀ (i : Nat) (f : FunctionValue), history.made[i]? = some f → f.stamp = i
  /-- The scopes of the store are numbered and have tables. -/
  placed : ∀ scope ∈ machine.store.scopes,
    scope.frame.id < machine.store.scopes.size ∧ scope.table < machine.store.tables.size
  closures : ∀ f ∈ history.made, f.closure ∈ machine.store.scopes
  instances : ∀ scope ∈ history.objects, scope ∈ machine.store.scopes
  /-- A function that is not of the host stems from a declaration. -/
  written : ∀ f ∈ history.made, f.native = none → ∃ d, part d ∧ f.Stems d
  ofHost : ∀ f ∈ history.made, f.native.isSome → f.isMethod = false
  /-- A function that is no method is declared where it was made. -/
  named : ∀ f ∈ history.made, f.native = none → f.isMethod = false →
    (machine.store.declared f.closure).has f.name = true
  /-- One name stands for one function in the scope where it was made. -/
  single : ∀ f ∈ history.made, ∀ g ∈ history.made, f.native = none → g.native = none →
    f.isMethod = g.isMethod → f.name = g.name → f.closure = g.closure → f = g
  /-- Methods are not made in objects. -/
  apart : ∀ f ∈ history.made, f.isMethod → f.closure ∉ history.objects
  values : machine.store.Holds (·.Explained part history)

namespace Chronicle

/-- What was made since then: methods and objects only in scopes that are new as well, but for the scopes in
    which methods may be made. -/
structure Since (own : Scope → Prop) (c c' : Chronicle part) : Prop where
  includes : c'.history.Includes c.history
  scopes : ∀ scope ∈ c.machine.store.scopes, scope ∈ c'.machine.store.scopes
  methods : ∀ f ∈ c'.history.made, f.isMethod → f.closure ∈ c.machine.store.scopes →
    f ∈ c.history.made ∨ own f.closure
  objects : ∀ scope ∈ c'.history.objects, scope ∈ c.machine.store.scopes → scope ∈ c.history.objects

section Since

variable {own own' : Scope → Prop} {c c' c'' : Chronicle part}

theorem Since.refl (c : Chronicle part) : Since own c c :=
  ⟨.refl _, fun _ => id, fun _ here _ _ => .inl here, fun _ here _ => here⟩

theorem Since.trans (first : Since own c c') (second : Since own c' c'') : Since own c c'' where
  includes := second.includes.trans first.includes
  scopes := fun scope here => second.scopes scope (first.scopes scope here)
  methods := by
    intro f made method old
    rcases second.methods f made method (first.scopes _ old) with earlier | may
    · exact first.methods f earlier method old
    · exact .inr may
  objects := fun scope made old =>
    first.objects scope (second.objects scope made (first.scopes _ old)) old

theorem Since.mono (since : Since own c c')
    (may : ∀ scope ∈ c.machine.store.scopes, own scope → own' scope) : Since own' c c' :=
  ⟨since.includes, since.scopes, fun f made method old => (since.methods f made method old).imp_right (may _ old),
    since.objects⟩

end Since

/-! ## Changes -/

variable (c : Chronicle part) {own : Scope → Prop}

def aside (m : Machine) (store : m.store = c.machine.store) (stamps : m.stamps = c.machine.stamps) :
    Chronicle part where
  machine := m
  history := c.history
  count := c.count.trans stamps.symm
  stamped := c.stamped
  placed := by simpa only [store] using c.placed
  closures := by simpa only [store] using c.closures
  instances := by simpa only [store] using c.instances
  written := c.written
  ofHost := c.ofHost
  named := by simpa only [store] using c.named
  single := c.single
  apart := c.apart
  values := by simpa only [store] using c.values

theorem since_aside {m : Machine} (store : m.store = c.machine.store) (stamps : m.stamps = c.machine.stamps) :
    Since own c (c.aside m store stamps) where
  includes := .refl _
  scopes := by
    intro scope here
    rw [← store] at here
    exact here
  methods := fun _ here _ _ => .inl here
  objects := fun _ here _ => here

def restore {grows : TableId → Prop} (f : Store → Store) (grown : c.machine.store.Extends grows (f c.machine.store))
    (placed : ∀ scope ∈ (f c.machine.store).scopes, scope.frame.id < (f c.machine.store).scopes.size ∧
      scope.table < (f c.machine.store).tables.size)
    (values : (f c.machine.store).Holds (·.Explained part c.history)) : Chronicle part where
  machine := c.machine.mapStore f
  history := c.history
  count := c.count
  stamped := c.stamped
  placed := placed
  closures := fun g here => grown.mem (c.closures g here)
  instances := fun scope here => grown.mem (c.instances scope here)
  written := c.written
  ofHost := c.ofHost
  named := fun g here user plain => grown.has (c.named g here user plain)
  single := c.single
  apart := c.apart
  values := values

theorem since_restore {grows : TableId → Prop} {f : Store → Store}
    (grown : c.machine.store.Extends grows (f c.machine.store)) (placed) (values) :
    Since own c (c.restore f grown placed values) where
  includes := .refl _
  scopes := fun _ here => grown.mem here
  methods := fun _ here _ _ => .inl here
  objects := fun _ here _ => here

def assign (id : TableId) (name : String) {v : Value} (explained : v.Explained part c.history) : Chronicle part :=
  c.restore (·.write (.stored id name) v) (Store.extends_assign _ id name (c.machine.store.storable v))
    (by simpa [Store.write, Store.modifyTable] using c.placed)
    (c.values.assign id name (Store.explained_storable c.values explained))

theorem since_assign (id : TableId) (name : String) {v : Value} (explained : v.Explained part c.history) :
    Since own c (c.assign id name explained) :=
  c.since_restore (Store.extends_assign _ id name (c.machine.store.storable v)) _ _

def add (id : TableId) (name : String) (type : DeclaredType) : Chronicle part :=
  c.restore (·.modifyTable id (·.add name type)) (Store.extends_add _ id name type)
    (by simpa [Store.modifyTable] using c.placed) (c.values.add id name type)

theorem since_add (id : TableId) (name : String) (type : DeclaredType) : Since own c (c.add id name type) :=
  c.since_restore (Store.extends_add _ id name type) _ _

/-- The function can be made next: in a scope of the store, from a declaration of the program, and in the scope there
    is no other function of its name. -/
structure Admits (f : FunctionValue) : Prop where
  stamp : f.stamp = c.machine.stamps
  closure : f.closure ∈ c.machine.store.scopes
  written : f.native = none → ∃ d, part d ∧ f.Stems d
  ofHost : f.native.isSome → f.isMethod = false
  named : f.native = none → f.isMethod = false → (c.machine.store.declared f.closure).has f.name = true
  fresh : f.native = none → ∀ g ∈ c.history.made, g.native = none → g.isMethod = f.isMethod → g.name = f.name →
    g.closure ≠ f.closure
  apart : f.isMethod → f.closure ∉ c.history.objects

def make (f : FunctionValue) (admits : c.Admits f) : Chronicle part where
  machine := { c.machine with stamps := c.machine.stamps + 1 }
  history := c.history.addFunction f
  count := by simp [History.addFunction, c.count]
  stamped := by
    intro i g found
    rcases Nat.lt_or_ge i c.history.made.length with old | new
    · rw [History.addFunction, List.getElem?_append_left old] at found
      exact c.stamped i g found
    · rw [History.addFunction, List.getElem?_append_right new] at found
      obtain ⟨bound, rfl⟩ := List.getElem?_eq_some_iff.1 found
      rw [List.length_singleton] at bound
      rw [List.getElem_singleton, admits.stamp, ← c.count]
      omega
  placed := c.placed
  closures := List.forall_mem_append.2 ⟨c.closures, List.forall_mem_singleton.2 admits.closure⟩
  instances := c.instances
  written := List.forall_mem_append.2 ⟨c.written, List.forall_mem_singleton.2 admits.written⟩
  ofHost := List.forall_mem_append.2 ⟨c.ofHost, List.forall_mem_singleton.2 admits.ofHost⟩
  named := List.forall_mem_append.2 ⟨c.named, List.forall_mem_singleton.2 admits.named⟩
  single := by
    intro g here g' here' user user' method name closure
    rcases List.mem_append.1 here with old | new <;> rcases List.mem_append.1 here' with old' | new'
    · exact c.single g old g' old' user user' method name closure
    · obtain rfl := List.mem_singleton.1 new'
      exact absurd closure (admits.fresh user' g old user method name)
    · obtain rfl := List.mem_singleton.1 new
      exact absurd closure.symm (admits.fresh user g' old' user' method.symm name.symm)
    · rw [List.mem_singleton.1 new, List.mem_singleton.1 new']
  apart := List.forall_mem_append.2 ⟨c.apart, List.forall_mem_singleton.2 admits.apart⟩
  values := c.values.mono fun _ => (c.history.includes_addFunction f).explains

theorem since_make {f : FunctionValue} (admits : c.Admits f) (may : f.isMethod → own f.closure) :
    Since own c (c.make f admits) where
  includes := c.history.includes_addFunction f
  scopes := fun _ => id
  methods := by
    intro g here method _
    rcases List.mem_append.1 here with old | new
    · exact .inl old
    · obtain rfl := List.mem_singleton.1 new
      exact .inr (may method)
  objects := fun _ here _ => here

/-! ### New scopes -/

variable (parent : Scope)

def nest : Chronicle part :=
  c.restore (Store.grow (c.machine.store.inner (some parent))) (Store.extends_grow c.machine.store _)
    (by
      intro scope here
      simp only [Store.grow, Array.size_push]
      rcases Array.mem_push.1 here with old | rfl
      · obtain ⟨id, table⟩ := c.placed scope old
        exact ⟨Nat.lt_succ_of_lt id, Nat.lt_succ_of_lt table⟩
      · exact ⟨Nat.lt_succ_self _, Nat.lt_succ_self _⟩)
    (c.values.grow _)

theorem since_nest : Since own c (c.nest parent) := c.since_restore (Store.extends_grow c.machine.store _) _ _

theorem inner_mem_nest : c.machine.store.inner (some parent) ∈ (c.nest parent).machine.store.scopes :=
  Array.mem_push_self

theorem inner_not_mem : c.machine.store.inner (some parent) ∉ c.machine.store.scopes := fun here =>
  Nat.lt_irrefl _ (c.placed _ here).1

def spawn : Chronicle part :=
  { c.nest parent with
    history := c.history.addObject (c.machine.store.inner (some parent))
    instances := List.forall_mem_cons.2 ⟨c.inner_mem_nest parent, (c.nest parent).instances⟩
    apart := by
      intro f made method object
      rcases List.mem_cons.1 object with new | old
      · exact c.inner_not_mem parent (new ▸ c.closures f made)
      · exact c.apart f made method old
    values := (c.nest parent).values.mono fun _ => (c.history.includes_addObject _).explains }

theorem since_spawn : Since own c (c.spawn parent) where
  includes := c.history.includes_addObject _
  scopes := fun _ here => (Store.extends_grow c.machine.store _).mem here
  methods := fun _ here _ _ => .inl here
  objects := by
    intro scope made old
    rcases List.mem_cons.1 made with new | before
    · exact absurd (new ▸ old) (c.inner_not_mem parent)
    · exact before

/-! ## Known functions -/

variable {c : Chronicle part} {f g : FunctionValue}

theorem eq_of_stamp (made : f ∈ c.history.made) (made' : g ∈ c.history.made) (same : f.stamp = g.stamp) : f = g := by
  obtain ⟨i, found⟩ := List.mem_iff_getElem?.1 made
  obtain ⟨j, found'⟩ := List.mem_iff_getElem?.1 made'
  rw [c.stamped i f found, c.stamped j g found'] at same
  rw [same, found'] at found
  exact (Option.some.inj found).symm

/-- A method is not of the host. -/
theorem native_eq_none (made : f ∈ c.history.made) (method : f.isMethod) : f.native = none := by
  cases native : f.native with
  | none => rfl
  | some => exact absurd (method.symm.trans (c.ofHost f made (by rw [native]; rfl))) (by decide)

/-- A function of the host is not bound to anything. -/
theorem made_of_host (knows : c.history.Knows f) (host : f.native.isSome) : f ∈ c.history.made := by
  cases knows with
  | made made => exact made
  | bound made method =>
    rw [FunctionValue.bind, c.native_eq_none made method] at host
    cases host

/-- A function that is not of the host stems from a declaration, and has the body that stands there. -/
theorem exists_declaration (stock : Stock part) (knows : c.history.Knows f) (user : f.native = none) :
    ∃ d, part d ∧ f.Stems d ∧ f.body.isAbsent = false := by
  obtain ⟨g, made, bound⟩ := knows.exists_made
  rw [bound] at user ⊢
  obtain ⟨d, code, span, rfl⟩ := c.written g made user
  exact ⟨_, code, ⟨span, rfl⟩, stock.bodies span g.modifiers g.name g.params g.body code⟩

/-- The stamp and the closure tell functions apart: two that are the same are equal in all. -/
theorem same_iff (stock : Stock part) (knows : c.history.Knows f) (knows' : c.history.Knows g) :
    f.same g = true ↔ f = g := by
  obtain ⟨f', made, bound⟩ := knows.exists_made
  obtain ⟨g', made', bound'⟩ := knows'.exists_made
  have stamp : f.stamp = f'.stamp := by rw [bound]; rfl
  have stamp' : g.stamp = g'.stamp := by rw [bound']; rfl
  have native : f.native = f'.native := by rw [bound]; rfl
  have native' : g.native = g'.native := by rw [bound']; rfl
  constructor
  · intro same
    rw [FunctionValue.same] at same
    split at same
    case isTrue host =>
      -- Functions of the host are the same by their stamps alone.
      have one : f' = g' := c.eq_of_stamp made made' (by simpa [stamp, stamp'] using same)
      have host : f'.native.isSome := by simpa [native, native', ← one] using host
      exact c.eq_of_stamp (c.made_of_host knows (native ▸ host)) (c.made_of_host knows' (native' ▸ one ▸ host))
        (by rw [stamp, stamp', one])
    case isFalse user =>
      -- Both have bodies, so what is the same in them is the stamp.
      have user : f'.native = none ∧ g'.native = none := by simpa [native, native'] using user
      obtain ⟨-, -, -, body⟩ := c.exists_declaration stock knows (native.trans user.1)
      have same : f.stamp = g.stamp ∧ f.closure = g.closure := by simpa [body] using same
      have one : f' = g' := c.eq_of_stamp made made' (by rw [← stamp, ← stamp', same.1])
      rw [bound, bound', one, same.2]
  · rintro rfl
    simp [FunctionValue.same]

/-- What was made of one name in one scope is one function, and so is what is bound to one scope. -/
theorem eq_of_closure (knows : c.history.Knows f) (knows' : c.history.Knows g) (user : f.native = none)
    (user' : g.native = none) (method : f.isMethod = g.isMethod) (name : f.name = g.name)
    (closure : f.closure = g.closure) : f = g := by
  cases knows with
  | made made =>
    cases knows' with
    | made made' => exact c.single f made g made' user user' method name closure
    | bound _ isMethod object =>
      exact absurd (closure ▸ object) (c.apart f made (method.trans isMethod))
  | @bound f' scope made isMethod object parent =>
    cases knows' with
    | made made' => exact absurd (closure ▸ object) (c.apart g made' (method.symm.trans isMethod))
    | @bound g' scope' made' isMethod' object' parent' =>
      obtain rfl : scope = scope' := closure
      have one : f' = g' := c.single f' made g' made' user user' method name
        (Option.some.inj (parent.symm.trans parent'))
      rw [one]

end Chronicle

end ClassScript
