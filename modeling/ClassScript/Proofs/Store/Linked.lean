import ClassScript.Proofs.Store.Resolution
import Mathlib.Logic.Function.Basic

/-! # Linked stores

A store can be laid out with addresses.  A table is then a list of names in order and a map from names to cells, a
cell holds one variable, and a scope has a link to its table and one to the scope around it (`Heap`).  A name is looked
up by following these links (`Heap.Resolves`).

`Heap.Represents` says that a heap is such a layout of a store.  Making scopes, declaring and assigning go hand in hand
on both (`Represents.nest`, `Represents.share`, `Represents.declare`, `Represents.write`), a declaration is refused on
both or on none (`Represents.declare_eq_none_iff`), and a look-up ends at the cell of the variable that the name means
(`Represents.resolves_iff`).  So every store that one can get to has a heap
that one gets to in the same way (`Store.Built.exists_heap`), and if the store is well-formed, then the links are in
order (`Represents.wellLinked`).
-/

namespace ClassScript

/-- The variables declared in one scope: their names in order, and the address of each. -/
structure Listing where
  order : List String
  cells : String → Option Nat

/-- A scope: the addresses of the scope around it and of its listing. -/
structure Link where
  parent : Option Nat
  listing : Nat

structure Heap where
  cells : Array Variable
  listings : Array Listing
  scopes : Array Link

namespace Heap

def empty : Heap := ⟨#[], #[], #[]⟩

def listing (h : Heap) (id : Nat) : Listing := h.listings[id]?.getD ⟨[], fun _ => none⟩

def cell? (h : Heap) (id : Nat) (name : String) : Option Nat := (h.listing id).cells name

/-! ## Operations -/

def share (h : Heap) (parent : Option Nat) (listing : Nat) : Heap :=
  { h with scopes := h.scopes.push ⟨parent, listing⟩ }

def nest (h : Heap) (parent : Option Nat) : Heap :=
  { h with
    listings := h.listings.push ⟨[], fun _ => none⟩
    scopes := h.scopes.push ⟨parent, h.listings.size⟩ }

/-- Declare a name in a listing, unless it is there. -/
def declare (h : Heap) (id : Nat) (name : String) (type : DeclaredType) : Option Heap :=
  if (h.cell? id name).isSome then none
  else
    some { h with
      cells := h.cells.push ⟨name, type, none⟩
      listings := h.listings.modify id fun l =>
        ⟨l.order ++ [name], Function.update l.cells name (some h.cells.size)⟩ }

/-- What is stored for a value: a variable gives what it holds, and null if that is nothing. -/
def storable (h : Heap) : Value → Value
  | .slot (.stored id name) => (((h.cell? id name).bind (h.cells[·]?)).bind (·.value)).getD .null
  | .slot (.method f) => .function f
  | value => value

def assign (h : Heap) (cell : Nat) (value : Value) : Heap :=
  { h with cells := h.cells.modify cell fun v => { v with value := some value } }

def write (h : Heap) (slot : Slot) (value : Value) : Heap :=
  match slot with
  | .stored id name =>
    match h.cell? id name with
    | some cell => h.assign cell (h.storable value)
    | none => h
  | .method _ => h

def address (h : Heap) : Slot → Option Nat
  | .stored id name => h.cell? id name
  | .method _ => none

inductive Resolves (h : Heap) (name : String) : Option Nat → Option Nat → Prop
  | outside : Resolves h name none none
  | found {i cell : Nat} {link : Link} : h.scopes[i]? = some link → h.cell? link.listing name = some cell →
      Resolves h name (some i) (some cell)
  | outward {i : Nat} {link : Link} {r : Option Nat} : h.scopes[i]? = some link → h.cell? link.listing name = none →
      Resolves h name link.parent r → Resolves h name (some i) r

theorem Resolves.unique {h : Heap} {name : String} {place r r' : Option Nat} (first : h.Resolves name place r)
    (second : h.Resolves name place r') : r = r' := by
  induction first with
  | outside =>
    cases second
    rfl
  | found at₁ there =>
    cases second with
    | found at₂ there' =>
      cases at₁.symm.trans at₂
      exact there.symm.trans there'
    | outward at₂ missing _ =>
      cases at₁.symm.trans at₂
      cases there.symm.trans missing
  | outward at₁ missing _ ih =>
    cases second with
    | found at₂ there =>
      cases at₁.symm.trans at₂
      cases there.symm.trans missing
    | outward at₂ _ rest =>
      cases at₁.symm.trans at₂
      exact ih rest

/-- The heaps that one gets to by making scopes, declaring names and assigning to variables. -/
inductive Made : Heap → Prop
  | empty : Made .empty
  | nest {h : Heap} (parent : Option Nat) : Made h → Made (h.nest parent)
  | share {h : Heap} (parent : Option Nat) (listing : Nat) : Made h → Made (h.share parent listing)
  | declare {h h' : Heap} {id : Nat} {name : String} {type : DeclaredType} :
      Made h → h.declare id name type = some h' → Made h'
  | write {h : Heap} (slot : Slot) (value : Value) : Made h → Made (h.write slot value)

end Heap

/-! ## A store and its heap -/

def Scope.link (scope : Scope) : Link := ⟨scope.parent?.map (·.frame.id), scope.table⟩

/-- The heap is the store with addresses: the same scopes, and the same variables in the same order, each of which
    has a cell of its own. -/
structure Heap.Represents (h : Heap) (s : Store) : Prop where
  scopes : h.scopes = s.scopes.map Scope.link
  size : h.listings.size = s.tables.size
  order (id : Nat) : (h.listing id).order = (s.table id).names
  known (id : Nat) (name : String) : (h.cell? id name).isSome = (s.table id).has name
  holds {id : Nat} {name : String} {cell : Nat} (found : h.cell? id name = some cell) :
    h.cells[cell]? = (s.table id).get? name
  owned {cell : Nat} (inside : cell < h.cells.size) : ∃ id name, h.cell? id name = some cell
  apart {id id' : Nat} {name name' : String} {cell : Nat} (found : h.cell? id name = some cell)
    (found' : h.cell? id' name' = some cell) : id = id' ∧ name = name'

/-- Scopes have the numbers of their places, and each lies in one that was made before it. -/
def Store.Numbered (s : Store) : Prop :=
  ∀ (i : Nat) (scope : Scope), s.scopes[i]? = some scope → scope.frame.id = i ∧
    ∀ outer, scope.parent? = some outer → outer ∈ s.scopes ∧ outer.frame.id < i

namespace Store

variable {s : Store}

theorem parent?_upcoming (s : Store) (parent : Option Scope) (id : TableId) :
    (s.upcoming parent id).parent? = parent := by
  cases parent <;> rfl

theorem Numbered.mem (numbered : s.Numbered) {scope : Scope} (here : scope ∈ s.scopes) :
    s.scopes[scope.frame.id]? = some scope := by
  obtain ⟨i, placed⟩ := Array.mem_iff_getElem?.1 here
  rw [(numbered i scope placed).1, placed]

theorem Numbered.push (numbered : s.Numbered) {parent : Option Scope} (outside : ∀ outer ∈ parent, outer ∈ s.scopes)
    (id : TableId) (tables : Array Table) : Numbered ⟨tables, s.scopes.push (s.upcoming parent id)⟩ := by
  intro i scope placed
  rw [Array.getElem?_push] at placed
  split at placed
  case isTrue last =>
    cases placed
    refine ⟨last.symm, fun outer is => ?_⟩
    rw [parent?_upcoming] at is
    have there := outside outer is
    obtain ⟨bound, -⟩ := Array.getElem?_eq_some_iff.1 (numbered.mem there)
    exact ⟨Array.mem_push_of_mem _ there, last ▸ bound⟩
  case isFalse =>
    obtain ⟨own, before⟩ := numbered i scope placed
    exact ⟨own, fun outer is => ⟨Array.mem_push_of_mem _ (before outer is).1, (before outer is).2⟩⟩

theorem Built.numbered (built : s.Built) : s.Numbered := by
  induction built with
  | empty => exact fun i scope placed => nomatch placed
  | nest _ outside ih => exact ih.push outside _ _
  | share _ outside _ ih => exact ih.push outside _ _
  -- The last two leave the scopes alone.
  | declare _ _ declared ih =>
    rw [Store.declare] at declared
    split at declared
    · cases declared
    · cases declared
      exact ih
  | write slot value _ ih =>
    cases slot with
    | stored => exact ih
    | method => exact ih

end Store

namespace Heap

variable {h : Heap} {s : Store}

theorem Represents.exists_variable (represents : h.Represents s) {id : Nat} {name : String} {cell : Nat}
    (found : h.cell? id name = some cell) : ∃ v, (s.table id).get? name = some v ∧ h.cells[cell]? = some v := by
  have known : (s.table id).has name = true := by rw [← represents.known, found, Option.isSome_some]
  obtain ⟨v, is⟩ := Option.isSome_iff_exists.1 known
  exact ⟨v, is, (represents.holds found).trans is⟩

theorem Represents.bound (represents : h.Represents s) {id : Nat} {name : String} {cell : Nat}
    (found : h.cell? id name = some cell) : cell < h.cells.size := by
  obtain ⟨v, -, there⟩ := represents.exists_variable found
  exact (Array.getElem?_eq_some_iff.1 there).1

theorem Represents.get?_eq_none (represents : h.Represents s) {id : Nat} {name : String}
    (missing : h.cell? id name = none) : (s.table id).get? name = none := by
  have known : (s.table id).has name = false := by rw [← represents.known, missing, Option.isSome_none]
  exact Option.isNone_iff_eq_none.1 (Option.isSome_eq_false_iff.1 known)

theorem Represents.empty : Heap.empty.Represents Store.empty where
  scopes := Array.map_empty.symm
  size := rfl
  order _ := rfl
  known _ _ := rfl
  holds found := nomatch found
  owned inside := nomatch inside
  apart found := nomatch found

/-! ## Scopes -/

theorem Represents.share (represents : h.Represents s) (parent : Option Scope) (id : TableId) :
    (h.share (parent.map (·.frame.id)) id).Represents (s.share parent id).2 where
  scopes := by
    have link : (s.upcoming parent id).link = ⟨parent.map (·.frame.id), id⟩ := by
      rw [Scope.link, Store.parent?_upcoming]
      rfl
    rw [Heap.share, Store.share, Array.map_push, link, represents.scopes]
  size := represents.size
  order := represents.order
  known := represents.known
  holds := represents.holds
  owned := represents.owned
  apart := represents.apart

theorem listing_nest (h : Heap) (parent : Option Nat) (id : Nat) : (h.nest parent).listing id = h.listing id := by
  rw [listing, listing, nest, Array.getElem?_push]
  split
  case isTrue last => rw [last, Array.getElem?_eq_none (Nat.le_refl _), Option.getD_some, Option.getD_none]
  case isFalse => rfl

theorem cell?_nest (h : Heap) (parent : Option Nat) (id : Nat) (name : String) :
    (h.nest parent).cell? id name = h.cell? id name := by
  rw [cell?, cell?, listing_nest]

theorem Represents.nest (represents : h.Represents s) (parent : Option Scope) :
    (h.nest (parent.map (·.frame.id))).Represents (s.nest parent).2 := by
  have table (id : TableId) : (s.nest parent).2.table id = s.table id := Store.table_grow s _ id
  have shared := represents.share parent s.tables.size
  refine ⟨?_, ?_, fun id => ?_, fun id name => ?_, fun found => ?_, fun inside => ?_, fun found found' => ?_⟩
  · rw [Heap.nest, represents.size]
    exact shared.scopes
  · rw [Heap.nest, Array.size_push, represents.size]
    exact (Array.size_push ..).symm
  · rw [listing_nest, table, represents.order]
  · rw [cell?_nest, table, represents.known]
  · rw [table]
    exact represents.holds (cell?_nest h .. ▸ found)
  · obtain ⟨id, name, found⟩ := represents.owned inside
    exact ⟨id, name, (cell?_nest ..).trans found⟩
  · exact represents.apart (cell?_nest h .. ▸ found) (cell?_nest h .. ▸ found')

/-! ## Declarations -/

theorem listing_modify (h : Heap) {id : Nat} (inside : id < h.listings.size) (f : Listing → Listing)
    (cells : Array Variable) (id' : Nat) :
    Heap.listing { h with cells, listings := h.listings.modify id f } id' =
      if id' = id then f (h.listing id) else h.listing id' := by
  rw [listing, listing, listing, Array.getElem?_modify]
  by_cases same : id' = id
  · subst same
    rw [if_pos rfl, if_pos rfl, Array.getElem?_eq_getElem inside]
    rfl
  · rw [if_neg fun is => same is.symm, if_neg same]

/-- A free name gets a cell, and no other name a different one. -/
theorem exists_declare {id : Nat} {name : String} (inside : id < h.listings.size) (free : h.cell? id name = none)
    (type : DeclaredType) :
    ∃ h', h.declare id name type = some h' ∧ h'.scopes = h.scopes ∧ h'.listings.size = h.listings.size ∧
      h'.cells = h.cells.push ⟨name, type, none⟩ ∧
      (∀ id', (h'.listing id').order = if id' = id then (h.listing id).order ++ [name] else (h.listing id').order) ∧
      ∀ id' name', h'.cell? id' name' = if id' = id ∧ name' = name then some h.cells.size else h.cell? id' name' := by
  have absent : ¬(h.cell? id name).isSome = true := by simp [free]
  refine ⟨_, if_neg absent, rfl, Array.size_modify, rfl, fun id' => ?_, fun id' name' => ?_⟩
  · rw [listing_modify h inside]
    split <;> rfl
  · rw [cell?, listing_modify h inside]
    by_cases same : id' = id
    · subst same
      by_cases named : name' = name
      · simp [named]
      · simp [named, cell?]
    · simp [same, cell?]

theorem Represents.declare (represents : h.Represents s) {scope : Scope} (inside : scope.table < s.tables.size)
    {name : String} {type : DeclaredType} {s' : Store} (declared : s.declare scope name type = .ok s') :
    ∃ h', h.declare scope.table name type = some h' ∧ h'.Represents s' := by
  rw [Store.declare] at declared
  split at declared
  case isTrue => cases declared
  case isFalse free =>
    cases declared
    rw [Store.declared, ← represents.known, Bool.not_eq_true, Option.isSome_eq_false_iff,
      Option.isNone_iff_eq_none] at free
    obtain ⟨h', made, scopes, size, cells, order, cell⟩ := exists_declare (represents.size ▸ inside) free type
    have old {id : Nat} {name' : String} {a : Nat} (found : h.cell? id name' = some a) : a ≠ h.cells.size :=
      Nat.ne_of_lt (represents.bound found)
    refine ⟨h', made, scopes.trans represents.scopes, ?_, fun id => ?_, fun id name' => ?_, ?_, ?_, ?_⟩
    · rw [size, represents.size]
      exact (Array.size_modify ..).symm
    · rw [order, Store.table_add inside, represents.order, represents.order]
      split
      · rw [Table.names_add]
      · rfl
    · rw [cell, Store.has_add inside, ← represents.known]
      by_cases new : id = scope.table ∧ name' = name
      · simp [new]
      · rw [if_neg new, ← Bool.decide_and, decide_eq_false new, Bool.or_false]
    · intro id name' a found
      rw [cell] at found
      rw [cells, Array.getElem?_push, Store.get?_add inside]
      split at found
      case isTrue new =>
        cases found
        rw [if_pos rfl, if_pos new, new.1, new.2, represents.get?_eq_none free, Option.none_or]
      case isFalse other =>
        rw [if_neg (old found), if_neg other, Option.or_none, represents.holds found]
    · intro a bound
      rw [cells, Array.size_push] at bound
      rcases Nat.lt_or_ge a h.cells.size with before | last
      · obtain ⟨id, name', found⟩ := represents.owned before
        refine ⟨id, name', ?_⟩
        rw [cell, if_neg ?_, found]
        rintro ⟨rfl, rfl⟩
        cases free.symm.trans found
      · refine ⟨scope.table, name, ?_⟩
        rw [cell, if_pos ⟨rfl, rfl⟩, show a = h.cells.size by omega]
    · intro id id' name₁ name₂ a found found'
      rw [cell] at found found'
      split at found <;> split at found'
      case isTrue.isTrue new new' => exact ⟨new.1.trans new'.1.symm, new.2.trans new'.2.symm⟩
      case isTrue.isFalse =>
        cases found
        exact absurd rfl (old found')
      case isFalse.isTrue =>
        cases found'
        exact absurd rfl (old found)
      case isFalse.isFalse => exact represents.apart found found'

/-- What is refused on one side is refused on the other. -/
theorem Represents.declare_eq_none_iff (represents : h.Represents s) (scope : Scope) (name : String)
    (type : DeclaredType) :
    h.declare scope.table name type = none ↔ s.declare scope name type = .error (.redeclared name) := by
  rw [Heap.declare, Store.declare, represents.known, Store.declared]
  split <;> simp

/-! ## Assignments -/

theorem Represents.storable (represents : h.Represents s) (value : Value) : h.storable value = s.storable value := by
  cases value with
  | slot slot =>
    cases slot with
    | method f => rfl
    | stored id name =>
      rw [Heap.storable, Store.storable, Store.entry]
      cases found : h.cell? id name with
      | some cell =>
        rw [Option.bind_some, represents.holds found]
        cases (s.table id).get? name <;> rfl
      | none =>
        rw [represents.get?_eq_none found]
        rfl
  | _ => rfl

/-- A heap with the links of the one before stands for the store after an assignment if its cells hold what the
    variables hold then. -/
theorem Represents.assigned (represents : h.Represents s) {id : TableId} {name : String} {v : Value} {h' : Heap}
    (scopes : h'.scopes = h.scopes) (listings : h'.listings = h.listings) (size : h'.cells.size = h.cells.size)
    (holds : ∀ {id' name' cell}, h.cell? id' name' = some cell →
      h'.cells[cell]? = ((s.modifyTable id (·.assign name v)).table id').get? name') :
    h'.Represents (s.modifyTable id (·.assign name v)) := by
  have listing (id' : Nat) : h'.listing id' = h.listing id' := by rw [Heap.listing, Heap.listing, listings]
  have cell (id' : Nat) (name' : String) : h'.cell? id' name' = h.cell? id' name' := by rw [cell?, cell?, listing]
  refine ⟨scopes.trans represents.scopes, ?_, fun id' => ?_, fun id' name' => ?_, fun found => ?_, fun inside => ?_,
    fun found found' => ?_⟩
  · rw [listings, represents.size]
    exact Array.size_modify.symm
  · rw [listing, represents.order, Store.names_modifyTable_assign]
  · rw [cell, represents.known, Table.has_congr (Store.names_modifyTable_assign ..)]
  · exact holds (cell .. ▸ found)
  · obtain ⟨id', name', found⟩ := represents.owned (size ▸ inside)
    exact ⟨id', name', (cell ..).trans found⟩
  · exact represents.apart (cell .. ▸ found) (cell .. ▸ found')

theorem Represents.write (represents : h.Represents s) (slot : Slot) (value : Value) :
    (h.write slot value).Represents (s.write slot value) := by
  cases slot with
  | method f => exact represents
  | stored id name =>
    rw [Heap.write, Store.write, ← represents.storable]
    cases found : h.cell? id name with
    | none =>
      -- Nothing is assigned to a name that is not there.
      refine represents.assigned rfl rfl rfl fun {id' name' a} there => ?_
      rw [represents.holds there, Store.get?_modifyTable_assign, if_neg]
      rintro ⟨rfl, rfl⟩
      cases found.symm.trans there
    | some cell =>
      refine represents.assigned rfl rfl Array.size_modify fun {id' name' a} there => ?_
      change (h.cells.modify cell _)[a]? = _
      rw [Array.getElem?_modify, represents.holds there, Store.get?_modifyTable_assign]
      by_cases same : cell = a
      · subst same
        obtain ⟨rfl, rfl⟩ := represents.apart found there
        rw [if_pos rfl, if_pos ⟨rfl, rfl⟩]
      · rw [if_neg same, if_neg]
        rintro ⟨rfl, rfl⟩
        exact same (Option.some.inj (found.symm.trans there))

/-! ## Look-ups -/

theorem Represents.link (represents : h.Represents s) (numbered : s.Numbered) {scope : Scope}
    (here : scope ∈ s.scopes) : h.scopes[scope.frame.id]? = some scope.link := by
  rw [represents.scopes, Array.getElem?_map, numbered.mem here, Option.map_some]

theorem Represents.address_resolveIn (represents : h.Represents s) (name : String) (frame : Frame)
    (enclosing : List Frame) : (s.resolveIn name (frame :: enclosing)).bind h.address =
      (h.cell? frame.table name).or ((s.resolveIn name enclosing).bind h.address) := by
  rw [Store.resolveIn, ← represents.known]
  cases found : h.cell? frame.table name with
  | some cell => exact found
  | none => rfl

theorem Represents.resolves (represents : h.Represents s) (numbered : s.Numbered) {frame : Frame}
    {enclosing : List Frame} (here : ⟨frame, enclosing⟩ ∈ s.scopes) (name : String) :
    h.Resolves name (some frame.id) ((s.resolve? ⟨frame, enclosing⟩ name).bind h.address) := by
  induction enclosing generalizing frame with
  | nil =>
    have link := represents.link numbered here
    rw [Store.resolve?, Scope.frames, represents.address_resolveIn]
    cases found : h.cell? frame.table name with
    | some cell => exact .found link found
    | none => exact .outward link found .outside
  | cons outer rest ih =>
    have link := represents.link numbered here
    obtain ⟨there, -⟩ := (numbered _ _ (numbered.mem here)).2 ⟨outer, rest⟩ rfl
    rw [Store.resolve?, Scope.frames, represents.address_resolveIn]
    cases found : h.cell? frame.table name with
    | some cell => exact .found link found
    | none => exact .outward link found (ih there)

/-- Following the links from a scope ends at the cell of the variable that the name means there. -/
theorem Represents.resolves_iff (represents : h.Represents s) (numbered : s.Numbered) {scope : Scope}
    (here : scope ∈ s.scopes) (name : String) (r : Option Nat) :
    h.Resolves name (some scope.frame.id) r ↔ r = (s.resolve? scope name).bind h.address := by
  have resolves := represents.resolves numbered here name
  constructor
  · exact fun other => other.unique resolves
  · rintro rfl
    exact resolves

end Heap

/-- Every store that one can get to has a heap that one gets to in the same way. -/
theorem Store.Built.exists_heap {s : Store} (built : s.Built) : ∃ h : Heap, h.Made ∧ h.Represents s := by
  induction built with
  | empty => exact ⟨_, .empty, .empty⟩
  | @nest s parent _ _ ih =>
    obtain ⟨h, made, represents⟩ := ih
    exact ⟨_, made.nest _, represents.nest parent⟩
  | @share s parent owner _ _ _ ih =>
    obtain ⟨h, made, represents⟩ := ih
    exact ⟨_, made.share _ _, represents.share parent owner.table⟩
  | declare built here declared ih =>
    obtain ⟨h, made, represents⟩ := ih
    obtain ⟨h', is, represents'⟩ :=
      represents.declare (built.housed _ here _ List.mem_cons_self) declared
    exact ⟨h', made.declare is, represents'⟩
  | write slot value _ ih =>
    obtain ⟨h, made, represents⟩ := ih
    exact ⟨_, made.write slot value, represents.write slot value⟩

/-! ## Links in order -/

structure Heap.WellLinked (h : Heap) (root : Nat) : Prop where
  order (id : Nat) : (h.listing id).order.Nodup
  /-- A listing has cells for exactly the names in its order. -/
  keys (id : Nat) (name : String) : name ∈ (h.listing id).order ↔ ∃ cell, h.cell? id name = some cell
  named {id : Nat} {name : String} {cell : Nat} (found : h.cell? id name = some cell) :
    ∃ v, h.cells[cell]? = some v ∧ v.name = name
  plain : ∀ v ∈ h.cells, ∀ x ∈ v.value, x.isPlain
  /-- A cell is in one listing only, and there under one name. -/
  single {cell : Nat} (inside : cell < h.cells.size) : ∃! place : Nat × String, h.cell? place.1 place.2 = some cell
  /-- No two scopes have one listing. -/
  unshared {i j : Nat} {link link' : Link} (first : h.scopes[i]? = some link) (second : h.scopes[j]? = some link')
    (same : link.listing = link'.listing) : i = j
  /-- Links lead outward to older scopes, and only the root has none. -/
  outward {i : Nat} {link : Link} (there : h.scopes[i]? = some link) :
    (link.parent = none ↔ i = root) ∧ ∀ j ∈ link.parent, j < i
  /-- Every look-up ends. -/
  ends {i : Nat} (inside : i < h.scopes.size) (name : String) : ∃ r, h.Resolves name (some i) r

theorem Heap.Represents.wellLinked {h : Heap} {s : Store} (represents : h.Represents s) (numbered : s.Numbered)
    {root : Scope} (sound : s.WellFormed root) : h.WellLinked root.frame.id := by
  have scope {i : Nat} {link : Link} (there : h.scopes[i]? = some link) :
      ∃ scope, s.scopes[i]? = some scope ∧ scope.link = link := by
    rw [represents.scopes, Array.getElem?_map] at there
    exact Option.map_eq_some_iff.1 there
  refine ⟨fun id => ?_, fun id name => ?_, fun found => ?_, fun v there x held => ?_, fun inside => ?_,
    fun first second same => ?_, fun there => ⟨?_, fun j is => ?_⟩, fun inside name => ?_⟩
  · rw [represents.order]
    exact sound.table_distinct id
  · rw [represents.order, ← Table.has_iff, ← represents.known, Option.isSome_iff_exists]
  · obtain ⟨v, is, there⟩ := represents.exists_variable found
    exact ⟨v, there, (Table.mem_of_get? is).2⟩
  · obtain ⟨cell, bound, rfl⟩ := Array.mem_iff_getElem.1 there
    obtain ⟨id, name, found⟩ := represents.owned bound
    obtain ⟨v, is, here⟩ := represents.exists_variable found
    rw [Array.getElem?_eq_getElem bound] at here
    exact (sound.mem_table (Table.mem_of_get? is).1 (Option.some.inj here ▸ held)).1
  · obtain ⟨id, name, found⟩ := represents.owned inside
    refine ⟨(id, name), found, fun place found' => ?_⟩
    obtain ⟨sameId, sameName⟩ := represents.apart found' found
    exact Prod.ext sameId sameName
  · obtain ⟨a, placed, rfl⟩ := scope first
    obtain ⟨b, placed', rfl⟩ := scope second
    have one := sound.eq_of_table (Array.mem_of_getElem? placed) (Array.mem_of_getElem? placed') same
    rw [← (numbered _ _ placed).1, one, (numbered _ _ placed').1]
  · obtain ⟨own, placed, rfl⟩ := scope there
    rw [← (numbered _ _ placed).1, Scope.link, Option.map_eq_none_iff]
    constructor
    · intro outermost
      by_contra differs
      obtain ⟨outer, -, is, -⟩ := sound.parents own (Array.mem_of_getElem? placed) fun is => differs (is ▸ rfl)
      cases outermost.symm.trans is
    · intro same
      have rooted := numbered.mem sound.rooted.1
      rw [← same, (numbered _ _ placed).1] at rooted
      cases placed.symm.trans rooted
      exact sound.rooted.2
  · obtain ⟨own, placed, rfl⟩ := scope there
    obtain ⟨outer, is', rfl⟩ := Option.map_eq_some_iff.1 is
    exact ((numbered _ _ placed).2 outer is').2
  · rw [represents.scopes, Array.size_map] at inside
    obtain ⟨own, placed⟩ : ∃ own, s.scopes[_]? = some own := ⟨_, Array.getElem?_eq_getElem inside⟩
    have resolves := represents.resolves numbered (Array.mem_of_getElem? placed) name
    rw [(numbered _ _ placed).1] at resolves
    exact ⟨_, resolves⟩

end ClassScript
