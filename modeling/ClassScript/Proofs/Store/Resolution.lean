import ClassScript.Proofs.Store.WellFormed

/-! # What a declaration changes

Several scopes may declare into one table, also at different depths of one chain.  A declaration in one of them
can then be seen from many scopes at once, and it is hidden from others by what is declared in front of it.
`Store.Exposed` says from where a table can be seen, and `declare_resolves` that a new name means its new variable
there, whatever the scopes were built from, and that nothing else changes its meaning.
-/

namespace ClassScript

namespace Store

variable {s s' : Store} {id : TableId} {name other : String} {type : DeclaredType}

/-! ## Building scopes -/

/-- The stores that one gets to by making scopes, with a table of their own or with that of another scope, by
    declaring names and by assigning to variables. -/
inductive Built : Store → Prop
  | empty : Built .empty
  | nest {s : Store} {parent : Option Scope} :
      Built s → (∀ outer ∈ parent, outer ∈ s.scopes) → Built (s.nest parent).2
  | share {s : Store} {parent : Option Scope} {owner : Scope} :
      Built s → (∀ outer ∈ parent, outer ∈ s.scopes) → owner ∈ s.scopes → Built (s.share parent owner.table).2
  | declare {s s' : Store} {scope : Scope} {name : String} {type : DeclaredType} :
      Built s → scope ∈ s.scopes → s.declare scope name type = .ok s' → Built s'
  | write {s : Store} (slot : Slot) (value : Value) : Built s → Built (s.write slot value)

def Housed (s : Store) : Prop := ∀ scope ∈ s.scopes, ∀ frame ∈ scope.frames, frame.table < s.tables.size

theorem Housed.modifyTable (housed : s.Housed) (id : TableId) (f : Table → Table) :
    (s.modifyTable id f).Housed := by
  intro scope here frame there
  rw [Store.modifyTable, Array.size_modify]
  exact housed scope here frame there

/-- The frames of a new scope are its own and those of its parent. -/
theorem Housed.upcoming (housed : s.Housed) {parent : Option Scope} (outside : ∀ outer ∈ parent, outer ∈ s.scopes)
    {bound : Nat} (known : s.tables.size ≤ bound) (own : id < bound) :
    ∀ frame ∈ (s.upcoming parent id).frames, frame.table < bound := by
  intro frame there
  rcases List.mem_cons.1 there with rfl | inherited
  · exact own
  · cases parent with
    | none => cases inherited
    | some outer => exact Nat.lt_of_lt_of_le (housed outer (outside outer rfl) frame inherited) known

theorem Built.housed (built : s.Built) : s.Housed := by
  induction built with
  | empty => simp [Housed, Store.empty]
  | @nest s parent _ outside housed =>
    intro scope here
    have size : (s.nest parent).2.tables.size = s.tables.size + 1 := Array.size_push ..
    rw [size]
    rcases Array.mem_push.1 here with old | rfl
    · exact fun frame there => Nat.lt_succ_of_lt (housed scope old frame there)
    · exact housed.upcoming outside (Nat.le_succ _) (Nat.lt_succ_self _)
  | share _ outside owned housed =>
    intro scope here
    rcases Array.mem_push.1 here with old | rfl
    · exact housed scope old
    · exact housed.upcoming outside (Nat.le_refl _) (housed _ owned _ List.mem_cons_self)
  -- The last two change tables without adding any.
  | declare _ _ declared housed =>
    rw [Store.declare] at declared
    split at declared
    · cases declared
    · cases declared
      exact housed.modifyTable _ _
  | write slot value _ housed =>
    cases slot with
    | stored id name => exact housed.modifyTable id _
    | method f => exact housed

/-! ## Finding names -/

/-- A name that is declared in the table is found there from the scope: some scope of the chain has the table, and
    none in front of it has the name. -/
def Exposed (s : Store) (id : TableId) (name : String) (scope : Scope) : Prop :=
  ∃ before owner after, scope.chain = before ++ owner :: after ∧ owner.table = id ∧
    ∀ inner ∈ before, (s.declared inner).has name = false

theorem table_add (inside : id < s.tables.size) (other : TableId) :
    (s.modifyTable id (·.add name type)).table other =
      if other = id then (s.table id).add name type else s.table other := by
  rw [table_modifyTable]
  by_cases same : other = id
  · rw [if_pos ⟨same.symm, inside⟩, if_pos same]
  · rw [if_neg (fun is => same is.1.symm), if_neg same]

theorem has_add (inside : id < s.tables.size) (other : TableId) (sought : String) :
    ((s.modifyTable id (·.add name type)).table other).has sought =
      ((s.table other).has sought || (decide (other = id) && decide (sought = name))) := by
  rw [table_add inside, Bool.eq_iff_iff, Bool.or_eq_true, Bool.and_eq_true, decide_eq_true_eq, decide_eq_true_eq]
  split
  case isTrue same => simp [Table.has_iff, same]
  case isFalse differs => simp [differs]

theorem get?_add (inside : id < s.tables.size) (other : TableId) (sought : String) :
    ((s.modifyTable id (·.add name type)).table other).get? sought = ((s.table other).get? sought).or
      (if other = id ∧ sought = name then some ⟨name, type, none⟩ else none) := by
  rw [table_add inside]
  split
  case isTrue same => simp [Table.get?_add, same, eq_comm]
  case isFalse differs => simp [differs]

section Chains

variable {chain before after : List Scope} {owner : Scope}

/-- No other name means anything else than before. -/
theorem resolveIn_add_ne (inside : id < s.tables.size) (differs : other ≠ name) :
    (s.modifyTable id (·.add name type)).resolveIn other (chain.map Scope.frame) =
      s.resolveIn other (chain.map Scope.frame) := by
  induction chain with
  | nil => rfl
  | cons scope rest ih =>
    rw [List.map_cons, resolveIn, resolveIn, has_add inside, ih]
    simp [differs]

/-- The new variable is found in the first scope that has its table, unless the name is found before. -/
theorem resolveIn_add_exposed (inside : id < s.tables.size) (owns : owner.table = id)
    (hidden : ∀ inner ∈ before, (s.declared inner).has name = false) :
    (s.modifyTable id (·.add name type)).resolveIn name ((before ++ owner :: after).map Scope.frame) =
      some (.stored id name) := by
  induction before with
  | nil =>
    have has : ((s.modifyTable id (·.add name type)).table owner.frame.table).has name = true := by
      rw [has_add inside, show owner.frame.table = id from owns]
      simp
    rw [List.nil_append, List.map_cons, resolveIn, if_pos has, show owner.frame.table = id from owns]
  | cons scope rest ih =>
    obtain ⟨first, others⟩ := List.forall_mem_cons.1 hidden
    have first : (s.table scope.frame.table).has name = false := first
    rw [List.cons_append, List.map_cons, resolveIn, has_add inside, first, ih others]
    by_cases same : scope.frame.table = id
    · simp [same]
    · simp [same]

/-- Where the new variable is not found, the name means what it meant. -/
theorem resolveIn_add_hidden (inside : id < s.tables.size)
    (unexposed : ¬ ∃ before owner after, chain = before ++ owner :: after ∧ owner.table = id ∧
      ∀ inner ∈ before, (s.declared inner).has name = false) :
    (s.modifyTable id (·.add name type)).resolveIn name (chain.map Scope.frame) =
      s.resolveIn name (chain.map Scope.frame) := by
  induction chain with
  | nil => rfl
  | cons scope rest ih =>
    have apart : scope.frame.table ≠ id := fun owns =>
      unexposed ⟨[], scope, rest, rfl, owns, by simp⟩
    rw [List.map_cons, resolveIn, resolveIn, has_add inside]
    cases first : (s.table scope.frame.table).has name with
    | true => simp
    | false =>
      have behind := ih (by
        rintro ⟨before, owner, after, parts, owns, hidden⟩
        exact unexposed ⟨scope :: before, owner, after, by rw [parts]; rfl, owns,
          List.forall_mem_cons.2 ⟨first, hidden⟩⟩)
      simp [apart, behind]

end Chains

theorem resolve?_add_exposed {scope : Scope} (inside : id < s.tables.size) (exposed : s.Exposed id name scope) :
    (s.modifyTable id (·.add name type)).resolve? scope name = some (.stored id name) := by
  obtain ⟨before, owner, after, parts, owns, hidden⟩ := exposed
  rw [resolve?, Scope.frames_eq, parts]
  exact resolveIn_add_exposed inside owns hidden

theorem resolve?_add_hidden {scope : Scope} (inside : id < s.tables.size)
    (unexposed : ¬ (other = name ∧ s.Exposed id name scope)) :
    (s.modifyTable id (·.add name type)).resolve? scope other = s.resolve? scope other := by
  rw [resolve?, resolve?, Scope.frames_eq]
  by_cases same : other = name
  · subst same
    exact resolveIn_add_hidden inside fun exposed => unexposed ⟨rfl, exposed⟩
  · exact resolveIn_add_ne inside same

/-- The new variable has no value, and the others are as they were. -/
theorem entry_add (inside : id < s.tables.size) (free : (s.table id).has name = false) :
    (s.modifyTable id (·.add name type)).entry (.stored id name) = ⟨name, type, none⟩ ∧
      ∀ slot, slot ≠ .stored id name → (s.modifyTable id (·.add name type)).entry slot = s.entry slot := by
  have nowhere : (s.table id).get? name = none := by simpa [Table.has] using free
  constructor
  · rw [Store.entry, get?_add inside, nowhere, Option.none_or, if_pos ⟨rfl, rfl⟩, Option.getD_some]
  · intro slot differs
    cases slot with
    | method f => rfl
    | stored table sought =>
      rw [Store.entry, Store.entry, get?_add inside, if_neg, Option.or_none]
      rintro ⟨rfl, rfl⟩
      exact differs rfl

end Store

/-! ## Declarations -/

/-- Declaring a name in a scope that has it fails and changes nothing.  Otherwise the name gets a new variable, which
    has no value: the name means it in all scopes that it can be seen from, and in no scope does any name mean
    anything else than before but for that. -/
theorem declare_resolves {m : Machine} (built : m.store.Built) {scope : Scope} (here : scope ∈ m.store.scopes)
    (name : String) (type : DeclaredType) :
    ((m.store.declared scope).has name = true →
      m.store.declare scope name type = .error (.redeclared name) ∧
      Eval.declare scope name type m = .error (.failure ⟨.redeclared name, .none⟩) m) ∧
    ((m.store.declared scope).has name = false → ∃ slot m',
      m.store.declare scope name type = .ok m'.store ∧ Eval.declare scope name type m = .ok slot m' ∧
      m'.store.scopes = m.store.scopes ∧
      (∀ t ∈ m.store.scopes, ∀ other, m.store.resolve? t other ≠ some slot) ∧
      m'.store.entry slot = ⟨name, type, none⟩ ∧
      (∀ old, old ≠ slot → m'.store.entry old = m.store.entry old) ∧
      ∀ t ∈ m.store.scopes,
        (m.store.Exposed scope.table name t → m'.store.resolve? t name = some slot) ∧
        ∀ other, ¬ (other = name ∧ m.store.Exposed scope.table name t) →
          m'.store.resolve? t other = m.store.resolve? t other) := by
  have inside : scope.table < m.store.tables.size := built.housed scope here scope.frame List.mem_cons_self
  constructor
  · intro taken
    rw [Store.declare, Eval.declare, if_pos taken, if_pos taken]
    exact ⟨rfl, rfl⟩
  · intro free
    rw [Store.declare, Eval.declare, if_neg (by simp [free]), if_neg (by simp [free])]
    obtain ⟨fresh, kept⟩ := @Store.entry_add m.store scope.table name type inside free
    refine ⟨_, _, rfl, rfl, rfl, fun t _ other is => ?_, fresh, kept, fun t _ => ?_⟩
    · -- No name meant the new variable before, since its table did not have the name.
      have held : ((m.store.table scope.table).has name) = true := Store.held_of_resolveIn is
      exact absurd (held.symm.trans free) Bool.noConfusion
    · exact ⟨Store.resolve?_add_exposed inside, fun other => Store.resolve?_add_hidden inside⟩

/-! ### A table that is seen twice -/

def outermost : Scope := ⟨⟨0, 0⟩, []⟩

def between : Scope := ⟨⟨1, 1⟩, [⟨0, 0⟩]⟩

def innermost : Scope := ⟨⟨2, 0⟩, [⟨1, 1⟩, ⟨0, 0⟩]⟩

def threeScopes : Store :=
  (((Store.empty.nest none).2.nest (some outermost)).2.share (some between) outermost.table).2.modifyTable
    between.table (·.add "x" .dynamic)

theorem built_threeScopes : threeScopes.Built :=
  have one : (Store.empty.nest none).2.Built := .nest .empty (by simp)
  have two : ((Store.empty.nest none).2.nest (some outermost)).2.Built := .nest one (by decide +kernel)
  have three := @Store.Built.share _ (some between) outermost two (by decide +kernel) (by decide +kernel)
  @Store.Built.declare _ _ between "x" .dynamic three (by decide +kernel) rfl

/-- From within, the outermost variable is seen in front of the one in the middle. -/
theorem declare_resolves_threeScopes :
    let m : Machine := { Interpreter.blank with store := threeScopes }
    m.store.Built ∧ outermost ∈ m.store.scopes ∧ (m.store.declared outermost).has "x" = false ∧
      ∃ slot m', Eval.declare outermost "x" .integer m = .ok slot m' ∧
        m'.store.resolve? innermost "x" = some slot ∧
        m'.store.resolve? between "x" = some (.stored between.table "x") := by
  intro m
  have built : m.store.Built := built_threeScopes
  have here : outermost ∈ m.store.scopes := by decide +kernel
  have free : (m.store.declared outermost).has "x" = false := by decide
  obtain ⟨slot, m', -, declared, -, -, -, -, means⟩ := (declare_resolves built here "x" .integer).2 free
  obtain ⟨seen, -⟩ := means innermost (by decide +kernel)
  obtain ⟨-, unchanged⟩ := means between (by decide +kernel)
  refine ⟨built, here, free, slot, m', declared, seen ⟨[], innermost, [between, outermost], rfl, rfl, by simp⟩, ?_⟩
  refine (unchanged "x" ?_).trans rfl
  -- The middle scope has a variable of that name itself.
  rintro ⟨-, before, owner, after, parts, owns, hidden⟩
  cases before with
  | nil =>
    cases parts
    cases owns
  | cons first rest =>
    have isBetween : between = first := (List.cons.inj parts).1
    exact absurd (hidden between (isBetween ▸ List.mem_cons_self)) (by decide)

end ClassScript
