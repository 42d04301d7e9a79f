import ClassScript.Fault

/-! # The store

The store holds the variables of all scopes, in tables. A table lists its variables in the order of
their declaration and holds at most one of each name. Scopes are values (`ClassScript.Scope`); the
store keeps those that were made, and the identity of a scope is its place among them.
-/

namespace ClassScript

/-- A variable: declared with a type, and holding a value once it is assigned. -/
structure Variable where
  name : String
  type : DeclaredType
  value : Option Value
  deriving Inhabited

abbrev Table := List Variable

namespace Table

def get? (t : Table) (name : String) : Option Variable := t.find? (·.name = name)

def names (t : Table) : List String := t.map (·.name)

def has (t : Table) (name : String) : Bool := (t.get? name).isSome

def add (t : Table) (name : String) (type : DeclaredType) : Table := t ++ [⟨name, type, none⟩]

def assign (t : Table) (name : String) (value : Value) : Table :=
  t.map fun v => if v.name = name then { v with value := some value } else v

end Table

structure Store where
  tables : Array Table
  scopes : Array Scope
  deriving Inhabited

namespace Store

def empty : Store := ⟨#[], #[]⟩

def table (s : Store) (id : TableId) : Table := s.tables[id]?.getD []

def declared (s : Store) (scope : Scope) : Table := s.table scope.table

def view (s : Store) (scope : Scope) : List (List String) :=
  scope.frames.map fun frame => (s.table frame.table).names

/-- A scope under `parent` that declares into a table, with the identity that is next in turn. -/
def upcoming (s : Store) (parent : Option Scope) (table : TableId) : Scope :=
  ⟨⟨s.scopes.size, table⟩, (parent.map Scope.frames).getD []⟩

/-- A new scope under `parent` that declares into an existing table. -/
def share (s : Store) (parent : Option Scope) (table : TableId) : Scope × Store :=
  let scope := s.upcoming parent table
  (scope, { s with scopes := s.scopes.push scope })

/-- The scope under `parent` that the next table is for. -/
def inner (s : Store) (parent : Option Scope) : Scope := s.upcoming parent s.tables.size

def grow (scope : Scope) : Store → Store
  | ⟨tables, scopes⟩ => ⟨tables.push [], scopes.push scope⟩

/-- A new scope under `parent` with a table of its own. -/
def nest (s : Store) (parent : Option Scope) : Scope × Store :=
  let scope := s.inner parent
  (scope, s.grow scope)

/-- The variable that a name means in some frames: that of the first one whose table has it. -/
def resolveIn (s : Store) (name : String) : List Frame → Option Slot
  | [] => none
  | frame :: rest =>
    if (s.table frame.table).has name then some (.stored frame.table name)
    else s.resolveIn name rest

def resolve? (s : Store) (scope : Scope) (name : String) : Option Slot :=
  s.resolveIn name scope.frames

def lookup (s : Store) (scope : Scope) (name : String) : Except Fault Slot :=
  match s.resolve? scope name with
  | some slot => .ok slot
  | none => .error (.undeclared name)

def modifyTable (id : TableId) (f : Table → Table) : Store → Store
  | ⟨tables, scopes⟩ => ⟨tables.modify id f, scopes⟩

/-- Declare a name in a scope. Outer declarations are shadowed. -/
def declare (s : Store) (scope : Scope) (name : String) (type : DeclaredType) :
    Except Fault Store :=
  if (s.declared scope).has name then .error (.redeclared name)
  else .ok (s.modifyTable scope.table (·.add name type))

/-- What a slot is a variable of: its name, type and value. -/
def entry (s : Store) : Slot → Variable
  | .stored table name => ((s.table table).get? name).getD ⟨name, .unknown, none⟩
  | .method f => ⟨f.name, .function, some (.function f)⟩

def read (s : Store) (slot : Slot) : Except Fault Value :=
  let v := s.entry slot
  match v.value with
  | some value => .ok value
  | none => .error (.uninitialized v.name)

/-- The plain value of any value: a slot gives what it holds, or a fault if that is nothing. -/
def plain (s : Store) : Value → Except Fault Value
  | .slot slot => s.read slot
  | value => .ok value

/-- What is stored for a value: a slot gives what it holds, and null if that is nothing. -/
def storable (s : Store) : Value → Value
  | .slot slot => (s.entry slot).value.getD .null
  | value => value

/-- Assign to a slot. A method read from an object is not kept anywhere, and neither is what is
    assigned to it. -/
def write (s : Store) (slot : Slot) (value : Value) : Store :=
  match slot with
  | .stored table name =>
    let kept := s.storable value
    s.modifyTable table (·.assign name kept)
  | .method _ => s

def text (s : Store) : Value → String
  | .slot slot =>
    let v := s.entry slot
    match v.value with
    | some value => value.text
    | none => "<uninitialized " ++ v.name ++ ">"
  | value => value.text

/-- The variable of a class with a name: only a static member that has a value counts. -/
def classMember (s : Store) (c : ClassValue) (name : String) : Except Fault Slot :=
  match (s.declared c.members).get? name with
  | some ⟨_, _, some _⟩ => .ok (.stored c.members.table name)
  | _ => .error (.noMember c.name name)

/-- The variable of an object with a name: a field, or a function of the class bound to the object,
    or a static member of the class. -/
def objectMember (s : Store) (o : ObjectValue) (name : String) : Except Fault Slot :=
  if (s.declared o.scope).has name then .ok (.stored o.scope.table name)
  else match o.blueprint.method? name with
    | some f => .ok (.method (f.bind o.scope))
    | none => s.classMember o.blueprint name

end Store

end ClassScript
