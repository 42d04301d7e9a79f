import ClassScript.Proofs.Store.WellFormed
import Mathlib.Data.Nat.Count

/-! # Stores with scopes left out

A scope without variables is not seen by anything that looks names up through it.  `thin gone` leaves the
scopes with the given numbers out, wherever they stand around another scope, and numbers the others anew
(`rank`).  `Store.Thins gone root s s'` says that `s'` is what is left of `s`: no scope that is gone has a
variable, and none of them is the very scope that a function, class or object in `s` belongs to.  Everything a
store can be asked or told commutes with that.

A function of the host can look at the scope it is called from, and then it does see a scope without variables.
So there are no such functions in the stores (`Native.IgnoresScope`).
-/

namespace ClassScript

/-! ## Numbers -/

def rank (gone : List TableId) (id : TableId) : TableId := Nat.count (· ∉ gone) id

section Rank

variable {gone : List TableId} {a b : Nat}

theorem rank_lt_iff (kept : a ∉ gone) : rank gone a < rank gone b ↔ a < b :=
  ⟨Nat.lt_of_count_lt_count, Nat.count_strict_mono kept⟩

theorem rank_inj (kept : a ∉ gone) (kept' : b ∉ gone) : rank gone a = rank gone b ↔ a = b :=
  ⟨Nat.count_injective kept kept', congrArg _⟩

theorem rank_succ (kept : a ∉ gone) : rank gone (a + 1) = rank gone a + 1 :=
  Nat.count_succ_eq_succ_count_iff.2 kept

theorem rank_eq_self (late : ∀ id ∈ gone, a ≤ id) : rank gone a = a :=
  Nat.count_iff_forall.2 fun id before here => absurd (late id here) (Nat.not_le_of_lt before)

theorem rank_cons (before : a ≤ b) : rank (b :: gone) a = rank gone a := by
  induction a with
  | zero => rfl
  | succ a ih =>
    have apart : a ≠ b := by omega
    have less : rank (b :: gone) a = rank gone a := ih (by omega)
    simp only [rank, Nat.count_succ, List.mem_cons, apart, false_or] at less ⊢
    rw [less]

/-- What is gone is not counted. -/
theorem rank_cons_succ : rank (b :: gone) (b + 1) = rank gone b := by
  rw [← rank_cons (Nat.le_refl b)]
  exact Nat.count_succ_eq_count_iff.2 (by simp)

theorem rank_cons_ge {size : Nat} (beyond : b ≤ a) (apart : a ≠ b) (counted : size = rank gone b) :
    size ≤ rank (b :: gone) a := by
  rw [counted, ← rank_cons_succ]
  exact Nat.count_monotone _ (by omega)

end Rank

/-! ## Scopes and values -/

def Frame.thin (gone : List TableId) (frame : Frame) : Frame := ⟨rank gone frame.id, rank gone frame.table⟩

def thinFrames (gone : List TableId) (frames : List Frame) : List Frame :=
  (frames.filter fun frame => frame.table ∉ gone).map (Frame.thin gone)

def Scope.thin (gone : List TableId) (scope : Scope) : Scope :=
  ⟨scope.frame.thin gone, thinFrames gone scope.enclosing⟩

def FunctionValue.thin (gone : List TableId) (f : FunctionValue) : FunctionValue :=
  { f with closure := f.closure.thin gone }

def ClassValue.thin (gone : List TableId) (c : ClassValue) : ClassValue :=
  { c with members := c.members.thin gone, prototype := c.prototype.map (·.thin gone) }

def ObjectValue.thin (gone : List TableId) (o : ObjectValue) : ObjectValue :=
  ⟨o.blueprint.thin gone, o.scope.thin gone⟩

def Slot.thin (gone : List TableId) : Slot → Slot
  | .stored table name => .stored (rank gone table) name
  | .method f => .method (f.thin gone)

def Value.thin (gone : List TableId) : Value → Value
  | .function f => .function (f.thin gone)
  | .blueprint c => .blueprint (c.thin gone)
  | .object o => .object (o.thin gone)
  | .slot found => .slot (found.thin gone)
  | plain => plain

def Variable.thin (gone : List TableId) (v : Variable) : Variable :=
  { v with value := v.value.map (·.thin gone) }

def Table.thin (gone : List TableId) (t : Table) : Table := t.map (·.thin gone)

section Values

variable {gone : List TableId}

theorem Scope.frames_thin {scope : Scope} (kept : scope.table ∉ gone) :
    (scope.thin gone).frames = thinFrames gone scope.frames := by
  have head : scope.frame.table ∉ gone := kept
  rw [thinFrames, frames, frames, List.filter_cons_of_pos (by simpa using head)]
  rfl

theorem Scope.eq_thin {scope scope' : Scope} (kept : scope.table ∉ gone)
    (same : scope'.frames = thinFrames gone scope.frames) : scope' = scope.thin gone := by
  rw [← frames_thin kept] at same
  obtain ⟨frame, enclosing⟩ := scope'
  cases same
  rfl

@[simp] theorem Value.kind_thin (v : Value) : (v.thin gone).kind = v.kind := by cases v <;> rfl

@[simp] theorem Value.text_thin (v : Value) : (v.thin gone).text = v.text := by cases v <;> rfl

theorem Value.thin_of_isDatum (v : Value) (datum : v.isDatum) : v.thin gone = v := by
  cases v with
  | integer | double | boolean => rfl
  | _ => cases datum

@[simp] theorem ClassValue.method?_thin (c : ClassValue) (name : String) :
    (c.thin gone).method? name = (c.method? name).map (·.thin gone) := by
  simp only [method?, thin, List.find?_map]
  rfl

namespace Table

@[simp] theorem get?_thin (t : Table) (name : String) :
    (t.thin gone).get? name = (t.get? name).map (·.thin gone) := by
  simp only [get?, thin, List.find?_map]
  rfl

@[simp] theorem has_thin (t : Table) (name : String) : (t.thin gone).has name = t.has name := by
  simp [has]

@[simp] theorem length_thin (t : Table) : (t.thin gone).length = t.length := by simp [thin]

theorem add_thin (t : Table) (name : String) (type : DeclaredType) :
    (t.thin gone).add name type = (t.add name type).thin gone := by
  simp [add, thin, Variable.thin]

theorem assign_thin (t : Table) (name : String) (value : Value) :
    (t.thin gone).assign name (value.thin gone) = (t.assign name value).thin gone := by
  simp only [assign, thin, List.map_map, List.map_inj_left, Function.comp_apply]
  intro v _
  by_cases same : v.name = name
  · rw [if_pos same, if_pos (show (v.thin gone).name = name from same)]
    rfl
  · rw [if_neg same, if_neg (show (v.thin gone).name ≠ name from same)]

end Table

end Values

/-! ## What is not gone -/

def Host.IgnoresScope : Host → Prop
  | .returns | .fails _ => True
  | .writes _ next => ∀ wrote, (next wrote).IgnoresScope
  | .evaluates _ next => ∀ answer, (next answer).IgnoresScope
  | .looks _ => False

def Native.IgnoresScope : Native → Prop
  | .print _ => True
  | .host act => ∀ count, (act count).IgnoresScope

/-- The function closes over a scope that is not gone, and does not look at the scope of a call. -/
structure FunctionValue.Spared (gone : List TableId) (f : FunctionValue) : Prop where
  closure : f.closure.table ∉ gone
  discreet : ∀ native, f.native = some native → native.IgnoresScope

structure ClassValue.Spared (gone : List TableId) (c : ClassValue) : Prop where
  members : c.members.table ∉ gone
  prototype : ∀ f ∈ c.prototype, f.Spared gone

structure ObjectValue.Spared (gone : List TableId) (o : ObjectValue) : Prop where
  blueprint : o.blueprint.Spared gone
  scope : o.scope.table ∉ gone

def Slot.Spared (gone : List TableId) : Slot → Prop
  | .stored table _ => table ∉ gone
  | .method f => f.Spared gone

def Value.Spared (gone : List TableId) : Value → Prop
  | .function f => f.Spared gone
  | .blueprint c => c.Spared gone
  | .object o => o.Spared gone
  | .slot found => found.Spared gone
  | _ => True

theorem Value.spared_of_isDatum {gone : List TableId} {v : Value} (datum : v.isDatum) :
    v.Spared gone := by
  cases v with
  | integer | double | boolean => trivial
  | _ => cases datum

namespace Store

/-- The second store is what is left of the first one without the scopes that are gone. -/
structure Thins (gone : List TableId) (root : Scope) (s s' : Store) : Prop where
  sound : s.WellFormed root
  within : ∀ id ∈ gone, id < s.tables.size
  bare : ∀ id ∈ gone, s.table id = []
  spared : ∀ id, ∀ v ∈ s.table id, ∀ x, v.value = some x → x.Spared gone
  size : s'.tables.size = rank gone s.tables.size
  tables : ∀ id, id ∉ gone → s'.table (rank gone id) = (s.table id).thin gone
  count : s'.scopes.size = rank gone s.scopes.size
  scopes : ∀ id, id ∉ gone → s'.scopes[rank gone id]? = s.scopes[id]?.map (·.thin gone)

namespace Thins

variable {gone : List TableId} {root : Scope} {s s' : Store} (thins : s.Thins gone root s')

include thins

theorem not_gone_of_has {id : TableId} {name : String} (there : (s.table id).has name) : id ∉ gone := by
  intro lost
  rw [thins.bare id lost] at there
  cases there

/-! ### Asking -/

theorem resolveIn (name : String) (frames : List Frame) :
    s'.resolveIn name (thinFrames gone frames) = (s.resolveIn name frames).map (·.thin gone) := by
  induction frames with
  | nil => rfl
  | cons frame rest ih =>
    rw [Store.resolveIn]
    by_cases lost : frame.table ∈ gone
    · -- Nothing is found in a scope that is gone.
      have nothing : (s.table frame.table).has name = false := by
        rw [thins.bare _ lost]
        rfl
      rw [thinFrames, List.filter_cons_of_neg (by simpa using lost), if_neg (by simp [nothing])]
      exact ih
    · rw [thinFrames, List.filter_cons_of_pos (by simpa using lost), List.map_cons, Store.resolveIn]
      change (if (s'.table (rank gone frame.table)).has name = true then _ else _) = _
      rw [thins.tables _ lost, Table.has_thin]
      split
      · rfl
      · exact ih

theorem lookup {scope scope' : Scope} (same : scope'.frames = thinFrames gone scope.frames) (name : String) :
    s'.lookup scope' name = (s.lookup scope name).map (·.thin gone) := by
  simp only [Store.lookup, resolve?, same, thins.resolveIn]
  cases s.resolveIn name scope.frames <;> rfl

theorem spared_of_lookup {scope : Scope} {name : String} {slot : Slot}
    (found : s.lookup scope name = .ok slot) : slot.Spared gone := by
  have held := held_of_lookup found
  cases slot with
  | stored id name => exact thins.not_gone_of_has held
  | method f =>
    have stored (frames : List Frame) : s.resolveIn name frames ≠ some (.method f) := by
      induction frames with
      | nil => rintro ⟨⟩
      | cons frame rest ih =>
        rw [Store.resolveIn]
        split
        · rintro ⟨⟩
        · exact ih
    rw [Store.lookup, resolve?] at found
    split at found
    next resolved =>
      cases found
      exact absurd resolved (stored _)
    next => cases found

theorem declared {scope : Scope} (kept : scope.table ∉ gone) :
    s'.declared (scope.thin gone) = (s.declared scope).thin gone :=
  thins.tables scope.table kept

theorem entry {slot : Slot} (spared : slot.Spared gone) :
    s'.entry (slot.thin gone) = (s.entry slot).thin gone := by
  cases slot with
  | stored table name =>
    simp only [Slot.thin, Store.entry, thins.tables table spared, Table.get?_thin]
    cases (s.table table).get? name <;> rfl
  | method f => rfl

theorem entry_spared {slot : Slot} (spared : slot.Spared gone) {x : Value}
    (found : (s.entry slot).value = some x) : x.Spared gone := by
  cases slot with
  | stored id name =>
    obtain ⟨v, here, value⟩ := mem_of_entry found
    exact thins.spared id v here x value
  | method f =>
    cases found
    exact spared

theorem read {slot : Slot} (spared : slot.Spared gone) :
    s'.read (slot.thin gone) = (s.read slot).map (·.thin gone) := by
  simp only [Store.read, thins.entry spared, Variable.thin]
  cases (s.entry slot).value <;> rfl

theorem read_spared {slot : Slot} (spared : slot.Spared gone) {x : Value} (found : s.read slot = .ok x) :
    x.Spared gone :=
  thins.entry_spared spared (entry_of_read found)

theorem plain {v : Value} (spared : v.Spared gone) :
    s'.plain (v.thin gone) = (s.plain v).map (·.thin gone) := by
  cases v with
  | slot slot => exact thins.read spared
  | _ => rfl

theorem plain_spared {v : Value} (spared : v.Spared gone) {x : Value} (found : s.plain v = .ok x) :
    x.Spared gone := by
  cases v with
  | slot slot => exact thins.read_spared spared found
  | _ =>
    cases found
    exact spared

theorem storable {v : Value} (spared : v.Spared gone) :
    s'.storable (v.thin gone) = (s.storable v).thin gone := by
  cases v with
  | slot slot =>
    simp only [Value.thin, Store.storable, thins.entry spared, Variable.thin]
    cases (s.entry slot).value <;> rfl
  | _ => rfl

theorem storable_spared {v : Value} (spared : v.Spared gone) : (s.storable v).Spared gone := by
  cases v with
  | slot slot =>
    rw [Store.storable]
    cases holds : (s.entry slot).value with
    | none => trivial
    | some y => exact thins.entry_spared spared holds
  | _ => exact spared

theorem text {v : Value} (spared : v.Spared gone) : s'.text (v.thin gone) = s.text v := by
  cases v with
  | slot slot =>
    simp only [Value.thin, Store.text, thins.entry spared, Variable.thin]
    cases (s.entry slot).value with
    | none => rfl
    | some value => exact value.text_thin
  | _ => rfl

theorem classMember {c : ClassValue} (spared : c.Spared gone) (name : String) :
    s'.classMember (c.thin gone) name = (s.classMember c name).map (·.thin gone) := by
  have members : s'.declared (c.thin gone).members = (s.declared c.members).thin gone :=
    thins.declared spared.members
  simp only [Store.classMember, members, Table.get?_thin]
  rcases (s.declared c.members).get? name with _ | ⟨_, _, _ | _⟩ <;> rfl

omit thins in
theorem classMember_spared {c : ClassValue} (spared : c.Spared gone) {name : String} {slot : Slot}
    (found : s.classMember c name = .ok slot) : slot.Spared gone := by
  rw [eq_stored_of_classMember found]
  exact spared.members

theorem objectMember {o : ObjectValue} (spared : o.Spared gone) (name : String) :
    s'.objectMember (o.thin gone) name = (s.objectMember o name).map (·.thin gone) := by
  have own : s'.declared (o.thin gone).scope = (s.declared o.scope).thin gone := thins.declared spared.scope
  have blueprint : (o.thin gone).blueprint = o.blueprint.thin gone := rfl
  simp only [Store.objectMember, own, Table.has_thin, blueprint, ClassValue.method?_thin,
    thins.classMember spared.blueprint]
  split
  · rfl
  · cases o.blueprint.method? name <;> rfl

omit thins in
theorem objectMember_spared {o : ObjectValue} (spared : o.Spared gone) {name : String} {slot : Slot}
    (found : s.objectMember o name = .ok slot) : slot.Spared gone := by
  rcases objectMember_cases found with ⟨rfl, -⟩ | ⟨f, method, -, rfl⟩ | static
  · exact spared.scope
  · exact ⟨spared.scope, (spared.blueprint.prototype f method).discreet⟩
  · exact classMember_spared spared.blueprint static

/-! ### Telling -/

theorem modifyTable {id : TableId} (kept : id ∉ gone) {f f' : Table → Table}
    (commutes : f' ((s.table id).thin gone) = (f (s.table id)).thin gone)
    (sound : (s.modifyTable id f).WellFormed root)
    (spared : ∀ v ∈ f (s.table id), ∀ x, v.value = some x → x.Spared gone) :
    (s.modifyTable id f).Thins gone root (s'.modifyTable (rank gone id) f') where
  sound := sound
  within := by simpa [Store.modifyTable] using thins.within
  bare := by
    intro id' lost
    -- The table that changes is kept, so it is none of those that are gone.
    have apart : id ≠ id' := fun same => kept (same ▸ lost)
    rw [table_modifyTable, if_neg (by simp [apart]), thins.bare id' lost]
  spared := by
    intro id' v here
    rw [table_modifyTable] at here
    split at here
    · exact spared v here
    · exact thins.spared id' v here
  size := by simpa [Store.modifyTable] using thins.size
  tables := by
    intro id' kept'
    rw [table_modifyTable, table_modifyTable]
    simp only [rank_inj kept kept', thins.size, rank_lt_iff kept]
    split
    · rw [thins.tables id kept, commutes]
    · exact thins.tables id' kept'
  count := thins.count
  scopes := thins.scopes

theorem write {slot : Slot} (sparedSlot : slot.Spared gone) {v : Value} (held : v.Held s)
    (spared : v.Spared gone) :
    (s.write slot v).Thins gone root (s'.write (slot.thin gone) (v.thin gone)) := by
  have sound := (thins.sound.write slot held).1
  cases slot with
  | stored id name =>
    simp only [Slot.thin, Store.write, thins.storable spared]
    refine thins.modifyTable sparedSlot (Table.assign_thin _ name _) sound fun w there x found => ?_
    obtain ⟨u, old, rfl⟩ := List.mem_map.1 there
    split at found
    · cases found
      exact thins.storable_spared spared
    · exact thins.spared id u old x found
  | method f => exact thins

theorem declare {scope : Scope} (here : scope ∈ s.scopes) (kept : scope.table ∉ gone) {name : String}
    (free : (s.declared scope).has name = false) (type : DeclaredType) :
    (s.modifyTable scope.table (·.add name type)).Thins gone root
      (s'.modifyTable (rank gone scope.table) (·.add name type)) := by
  refine thins.modifyTable kept (Table.add_thin _ name type) (thins.sound.declare here free type).1 ?_
  intro v there x found
  rcases List.mem_append.1 there with old | new
  · exact thins.spared scope.table v old x found
  · rw [List.mem_singleton.1 new] at found
    cases found

/-- The number of a new scope is not gone. -/
theorem size_kept : s.tables.size ∉ gone := fun lost => Nat.lt_irrefl _ (thins.within _ lost)

theorem inner {scope scope' : Scope} (same : scope'.frames = thinFrames gone scope.frames) :
    s'.inner (some scope') = (s.inner (some scope)).thin gone := by
  have number : s'.scopes.size = rank gone s.scopes.size := thins.count
  simp [Store.inner, upcoming, Scope.thin, Frame.thin, number, thins.size, same]

end Thins

/-! ### New scopes -/

theorem Thins.grow {gone : List TableId} {root : Scope} {s s' : Store}
    (thins : s.Thins gone root s') {scope : Scope} (here : scope ∈ s.scopes) :
    (s.grow (s.inner (some scope))).Thins gone root (s'.grow ((s.inner (some scope)).thin gone)) where
  sound := (thins.sound.grow here).1
  within := fun id lost => by
    have bound := thins.within id lost
    simp only [Store.grow, Array.size_push]
    exact Nat.lt_succ_of_lt bound
  bare := fun id lost => by rw [table_grow, thins.bare id lost]
  spared := fun id v there => thins.spared id v (by rwa [table_grow] at there)
  size := by
    simp only [Store.grow, Array.size_push, thins.size]
    -- The new table is kept, and counts in both stores.
    exact (rank_succ thins.size_kept).symm
  tables := fun id kept => by rw [table_grow, table_grow, thins.tables id kept]
  count := by
    simp only [Store.grow, Array.size_push, thins.count]
    exact (rank_succ (thins.sound.size ▸ thins.size_kept)).symm
  scopes := by
    intro id kept
    have last : s.scopes.size ∉ gone := thins.sound.size ▸ thins.size_kept
    simp only [Store.grow, Array.getElem?_push, thins.count, rank_inj kept last]
    split
    · rfl
    · exact thins.scopes id kept

end Store

/-! ## Nothing gone, and one scope more -/

section Nothing

theorem rank_nil (id : TableId) : rank [] id = id := rank_eq_self (List.forall_mem_nil _)

theorem thinFrames_nil (frames : List Frame) : thinFrames [] frames = frames := by
  have each : Frame.thin [] = id := funext fun frame => by simp [Frame.thin, rank_nil]
  simp [thinFrames, each]

theorem Scope.thin_nil (scope : Scope) : scope.thin [] = scope := by
  simp [thin, Frame.thin, rank_nil, thinFrames_nil]

theorem FunctionValue.thin_nil (f : FunctionValue) : f.thin [] = f := by
  rw [thin, Scope.thin_nil]

theorem ClassValue.thin_nil (c : ClassValue) : c.thin [] = c := by
  have each : FunctionValue.thin [] = id := funext FunctionValue.thin_nil
  rw [thin, Scope.thin_nil, each, List.map_id]

theorem Value.thin_nil (v : Value) : v.thin [] = v := by
  cases v with
  | function f => rw [thin, f.thin_nil]
  | blueprint c => rw [thin, c.thin_nil]
  | object o => rw [thin, ObjectValue.thin, o.blueprint.thin_nil, o.scope.thin_nil]
  | slot found =>
    cases found with
    | stored id name => rw [thin, Slot.thin, rank_nil]
    | method f => rw [thin, Slot.thin, f.thin_nil]
  | _ => rfl

theorem Table.thin_nil (t : Table) : t.thin [] = t := by
  have each : Variable.thin [] = id := by
    funext v
    obtain ⟨name, type, value⟩ := v
    cases value with
    | none => rfl
    | some v => simp [Variable.thin, v.thin_nil]
  rw [thin, each, List.map_id]

theorem Store.thins_nil {root : Scope} {s : Store} (sound : s.WellFormed root)
    (spared : ∀ id, ∀ v ∈ s.table id, ∀ x, v.value = some x → x.Spared []) : s.Thins [] root s where
  sound := sound
  within := List.forall_mem_nil _
  bare := List.forall_mem_nil _
  spared := spared
  size := (rank_nil _).symm
  tables := fun id _ => by rw [rank_nil, Table.thin_nil]
  count := (rank_nil _).symm
  scopes := fun id _ => by
    have each : Scope.thin [] = (fun scope => scope) := funext Scope.thin_nil
    rw [rank_nil, each, Option.map_id']

theorem Store.Thins.self {root : Scope} {s s' : Store} (thins : s.Thins [] root s') : s.Thins [] root s :=
  thins_nil thins.sound thins.spared

end Nothing

section OneMore

variable {gone : List TableId}

/-- A number that comes later makes no difference to a frame. -/
theorem Frame.thin_cons {id bound : Nat} (before : id < bound) :
    Frame.thin (bound :: gone) ⟨id, id⟩ = Frame.thin gone ⟨id, id⟩ := by
  rw [thin, thin, rank_cons (Nat.le_of_lt before)]

theorem thinFrames_cons {bound : Nat} {frames : List Frame}
    (old : ∀ frame ∈ frames, ∃ id < bound, frame = ⟨id, id⟩) :
    thinFrames (bound :: gone) frames = thinFrames gone frames := by
  induction frames with
  | nil => rfl
  | cons frame rest ih =>
    obtain ⟨⟨id, before, rfl⟩, others⟩ := List.forall_mem_cons.1 old
    have tail := ih others
    have apart : id ≠ bound := Nat.ne_of_lt before
    simp only [thinFrames, List.filter_cons, List.mem_cons, apart, false_or] at tail ⊢
    split
    · rw [List.map_cons, List.map_cons, Frame.thin_cons before, tail]
    · exact tail

variable {root : Scope} {s s' : Store} (sound : s.WellFormed root)

include sound

theorem Scope.thin_cons {scope : Scope} (here : scope ∈ s.scopes) :
    scope.thin (s.tables.size :: gone) = scope.thin gone := by
  obtain ⟨⟨id, before, is⟩, others⟩ := List.forall_mem_cons.1 (sound.frame_eq here)
  rw [thin, thin, is, Frame.thin_cons before, thinFrames_cons others]

theorem FunctionValue.thin_cons {f : FunctionValue} (closure : f.closure ∈ s.scopes) :
    f.thin (s.tables.size :: gone) = f.thin gone := by
  rw [thin, thin, Scope.thin_cons sound closure]

theorem ClassValue.thin_cons {c : ClassValue} (held : c.Held s) :
    c.thin (s.tables.size :: gone) = c.thin gone := by
  have prototype : c.prototype.map (·.thin (s.tables.size :: gone)) = c.prototype.map (·.thin gone) :=
    List.map_congr_left fun f there =>
      FunctionValue.thin_cons sound (held.closures f there ▸ held.members)
  rw [thin, thin, Scope.thin_cons sound held.members, prototype]

theorem Value.thin_cons {v : Value} (held : v.Held s) (plain : v.isPlain) :
    v.thin (s.tables.size :: gone) = v.thin gone := by
  cases v with
  | function f => rw [thin, thin, FunctionValue.thin_cons sound held]
  | blueprint c => rw [thin, thin, ClassValue.thin_cons sound held]
  | object o =>
    rw [thin, thin, ObjectValue.thin, ObjectValue.thin, ClassValue.thin_cons sound held.blueprint,
      Scope.thin_cons sound held.scope]
  | slot found => cases plain
  | _ => rfl

theorem Table.thin_cons (id : TableId) :
    (s.table id).thin (s.tables.size :: gone) = (s.table id).thin gone := by
  refine List.map_congr_left fun v there => ?_
  rw [Variable.thin, Variable.thin]
  cases value : v.value with
  | none => rfl
  | some x =>
    obtain ⟨plain, held⟩ := sound.mem_table there value
    rw [Option.map_some, Option.map_some, Value.thin_cons sound held plain]

theorem Value.spared_cons {v : Value} (held : v.Held s) (plain : v.isPlain) (spared : v.Spared gone) :
    v.Spared (s.tables.size :: gone) := by
  have kept {scope : Scope} (here : scope ∈ s.scopes) (kept : scope.table ∉ gone) :
      scope.table ∉ s.tables.size :: gone :=
    List.not_mem_cons_of_ne_of_not_mem (Nat.ne_of_lt (sound.table_lt here)) kept
  have ofClass {c : ClassValue} (held : c.Held s) (spared : c.Spared gone) :
      c.Spared (s.tables.size :: gone) := by
    refine ⟨kept held.members spared.members, fun f there => ?_⟩
    have closure : f.closure ∈ s.scopes := held.closures f there ▸ held.members
    exact ⟨kept closure (spared.prototype f there).closure, (spared.prototype f there).discreet⟩
  cases v with
  | function f => exact ⟨kept held spared.closure, spared.discreet⟩
  | blueprint c => exact ofClass held spared
  | object o => exact ⟨ofClass held.blueprint spared.blueprint, kept held.scope spared.scope⟩
  | slot found => cases plain
  | _ => trivial

omit sound in
/-- A new scope is gone as soon as it is made, and the second store stays as it is. -/
theorem Store.Thins.interpose (thins : s.Thins gone root s') {scope : Scope} (here : scope ∈ s.scopes) :
    (s.grow (s.inner (some scope))).Thins (s.tables.size :: gone) root s' where
  sound := (thins.sound.grow here).1
  within := by
    have more : (s.grow (s.inner (some scope))).tables.size = s.tables.size + 1 := by simp [Store.grow]
    rw [more]
    refine List.forall_mem_cons.2 ⟨Nat.lt_succ_self _, fun id lost => ?_⟩
    exact Nat.lt_succ_of_lt (thins.within id lost)
  bare := by
    refine List.forall_mem_cons.2 ⟨?_, fun id lost => ?_⟩
    · rw [table_grow, table_of_size_le (Nat.le_refl _)]
    · rw [table_grow, thins.bare id lost]
  spared := by
    intro id v there x found
    rw [table_grow] at there
    obtain ⟨plain, held⟩ := thins.sound.mem_table there found
    exact Value.spared_cons thins.sound held plain (thins.spared id v there x found)
  size := by
    simp only [Store.grow, Array.size_push, rank_cons_succ, thins.size]
  tables := by
    intro id kept
    rw [table_grow, Table.thin_cons thins.sound]
    -- The ranks before the new table stay as they were, and behind it there is no table in either store.
    rcases Nat.lt_or_ge id s.tables.size with before | beyond
    · rw [rank_cons (Nat.le_of_lt before), thins.tables id (List.not_mem_of_not_mem_cons kept)]
    · rw [table_of_size_le (rank_cons_ge beyond (List.ne_of_not_mem_cons kept) thins.size),
        table_of_size_le beyond]
      rfl
  count := by
    simp only [Store.grow, Array.size_push, ← thins.sound.size, rank_cons_succ, thins.count]
  scopes := by
    intro id kept
    have apart : id ≠ s.scopes.size := thins.sound.size ▸ List.ne_of_not_mem_cons kept
    rw [Store.grow, Array.getElem?_push, if_neg apart]
    rcases Nat.lt_or_ge id s.tables.size with before | beyond
    · rw [rank_cons (Nat.le_of_lt before), thins.scopes id (List.not_mem_of_not_mem_cons kept)]
      cases placed : s.scopes[id]? with
      | none => rfl
      | some inside =>
        rw [Option.map_some, Option.map_some, Scope.thin_cons thins.sound (Array.mem_of_getElem? placed)]
    · have count : s'.scopes.size = rank gone s.tables.size := thins.sound.size ▸ thins.count
      rw [Array.getElem?_eq_none (rank_cons_ge beyond (List.ne_of_not_mem_cons kept) count),
        Array.getElem?_eq_none (thins.sound.size ▸ beyond)]
      rfl

end OneMore

/-! ## Operators -/

namespace Store.Thins

variable {gone : List TableId} {root : Scope} {s s' : Store} (thins : s.Thins gone root s')

include thins

theorem scope_inj {a b : Scope} (here : a ∈ s.scopes) (there : b ∈ s.scopes) (kept : a.table ∉ gone)
    (kept' : b.table ∉ gone) : a.thin gone = b.thin gone ↔ a = b := by
  refine ⟨fun same => ?_, congrArg _⟩
  exact thins.sound.eq_of_table here there ((rank_inj kept kept').1 (congrArg Scope.table same))

/-- Functions, classes and objects are the same if they were before. -/
theorem equal? {l r : Value} (held : l.Held s) (held' : r.Held s) (spared : l.Spared gone)
    (spared' : r.Spared gone) :
    Operation.equal? (l.thin gone) (r.thin gone) = Operation.equal? l r := by
  cases l <;> cases r
  case function.function f g =>
    have closures := thins.scope_inj held held' spared.closure spared'.closure
    have same : (f.thin gone).same (g.thin gone) = f.same g := by
      simp only [FunctionValue.same, FunctionValue.thin, closures]
      rfl
    exact congrArg some same
  case blueprint.blueprint c d =>
    have members := thins.scope_inj held.members held'.members spared.members spared'.members
    simp only [Value.thin, Operation.equal?, ClassValue.thin, members]
  case object.object o p =>
    have scopes := thins.scope_inj held.scope held'.scope spared.scope spared'.scope
    simp only [Value.thin, Operation.equal?, ObjectValue.thin, scopes]
  all_goals rfl

theorem apply (op : BinaryOp) {l r : Value} (held : l.Held s) (held' : r.Held s) (spared : l.Spared gone)
    (spared' : r.Spared gone) :
    Operation.apply op (l.thin gone) (r.thin gone) = (Operation.apply op l r).map (·.thin gone) :=
  Operation.apply_map Value.kind_thin Value.thin_of_isDatum op (thins.equal? held held' spared spared')

end Store.Thins

end ClassScript
