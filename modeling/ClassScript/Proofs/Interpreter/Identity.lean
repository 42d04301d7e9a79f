import Mathlib.Logic.Equiv.List
import ClassScript.Proofs.Evaluator.History
import ClassScript.Proofs.Interpreter.Spans

/-! # When functions are equal

Functions are compared by stamp and closure.  This module says what that means for the functions that a host or a
program can get hold of after any accepted programs were run (`Found`): two functions that were written in the
language are equal if and only if they stem from one declaration and close over one scope, and a function of the host
equals itself alone (`runEach_functions`).

Which declaration a function stems from cannot be seen in the function: its text and even its spans can be those of
another one.  So the programs are run once more with a label of its own in the place of each span.  Evaluation does
not look at spans, so this run makes the same functions with the same stamps, and now each of them shows its
declaration (`StemsFrom`).
-/

namespace ClassScript

variable {part : Node → Prop}

namespace Interpreter

/-! ## Chronicles of runs -/

def blankChronicle (part : Node → Prop) : Chronicle part where
  machine := blank
  history := ⟨[], []⟩
  count := rfl
  stamped := by simp
  placed := by simp [blank, Store.nest, Store.grow, Store.empty, Store.inner, Store.upcoming, Scope.table]
  closures := by simp
  instances := by simp
  written := by simp
  ofHost := by simp
  named := by simp
  single := by simp
  apart := by simp
  values := by simp [Store.Holds, blank, Store.nest, Store.grow, Store.empty]

/-- A function of the host is made, and then assigned to its name. -/
theorem exists_install (c : Chronicle part) (here : c.machine.root ∈ c.machine.store.scopes) (builtin : Builtin) :
    ∃ c' : Chronicle part, c'.machine = install c.machine builtin := by
  let f : FunctionValue :=
    ⟨c.machine.stamps, builtin.name, [], .absent, c.machine.root, {}, some builtin.native⟩
  -- Whether or not the name was free, the function is made and written after it is declared.
  have store {c₁ : Chronicle part} (stamps : c₁.machine.stamps = c.machine.stamps)
      (here₁ : c.machine.root ∈ c₁.machine.store.scopes) : ∃ c' : Chronicle part, c'.machine =
        { c₁.machine with
          store := c₁.machine.store.write (.stored c.machine.root.table builtin.name) (.function f)
          stamps := c₁.machine.stamps + 1 } := by
    have admits : c₁.Admits f := {
      stamp := stamps.symm
      closure := here₁
      written := fun user => by cases user
      ofHost := fun _ => rfl
      named := fun user => by cases user
      fresh := fun user => by cases user
      apart := fun method => by cases method }
    have made : (Value.function f).Explained part (c₁.make f admits).history :=
      .made (List.mem_append_right _ List.mem_cons_self)
    exact ⟨(c₁.make f admits).assign c.machine.root.table builtin.name made, rfl⟩
  rw [install, Store.declare]
  split
  case h_1 declared free =>
    split at free
    · cases free
    · cases free
      exact @store (c.add c.machine.root.table builtin.name .function) rfl here
  case h_2 => exact store rfl here

theorem exists_start (part : Node → Prop) (extra : List Builtin) :
    ∃ c : Chronicle part, c.machine = start extra := by
  have installed (more : List Builtin) {c : Chronicle part} (sound : c.machine.Sound) :
      ∃ c' : Chronicle part, c'.machine = more.foldl install c.machine := by
    induction more generalizing c with
    | nil => exact ⟨c, rfl⟩
    | cons builtin more ih =>
      obtain ⟨c', is⟩ := exists_install c sound.rooted.1 builtin
      rw [List.foldl_cons, ← is]
      exact ih (is ▸ install_sound sound builtin)
  exact @installed (builtins ++ extra) (blankChronicle part) blank_sound

/-- A run leaves a machine with a history, which explains all that its programs yield. -/
theorem runEach_explained (stock : Stock part) (policy : Policy) {programs : List Node}
    (code : ∀ t ∈ programs, t.Evaluable part) {extra : List Builtin} {c : Chronicle part}
    (reachable : Reachable extra c.machine) :
    ∃ c' : Chronicle part, c'.machine = (runEach policy programs c.machine).2 ∧ c'.history.Includes c.history ∧
      ∀ step ∈ (runEach policy programs c.machine).1, ∀ v, step.outcome = .value v → v.Explained part c'.history := by
  induction programs generalizing c with
  | nil => exact ⟨c, rfl, .refl _, by simp [runEach]⟩
  | cons program rest ih =>
    obtain ⟨codeFirst, codeRest⟩ := List.forall_mem_cons.1 code
    have tells : Eval.Tells (fun _ => False) c (Evaluator.eval policy budget program c.machine.root)
        fun v c' => v.Explained part c'.history :=
      Evaluator.eval_tells stock policy budget program codeFirst reachable.sound.rooted.1
    -- One program: whatever it ends in, its machine has a history that goes on from `c`.
    obtain ⟨c₁, is, since, yields⟩ : ∃ c₁ : Chronicle part, c₁.machine = (evaluate policy program c.machine).2 ∧
        Chronicle.Since (fun _ => False) c c₁ ∧
        ∀ v, (evaluate policy program c.machine).1 = .value v → v.Explained part c₁.history := by
      rw [Eval.Tells] at tells
      rw [evaluate]
      cases result : Evaluator.eval policy budget program c.machine.root c.machine with
      | ok v m =>
        rw [result] at tells
        obtain ⟨c₁, is, since, explained⟩ := tells
        refine ⟨c₁, is, since, fun w same => ?_⟩
        cases same
        exact explained
      | error stop m =>
        rw [result] at tells
        obtain ⟨c₁, is, since⟩ := tells
        refine ⟨c₁, is, since, fun w same => ?_⟩
        cases same
    -- The output is taken before the next program runs, which is of no account for the history.
    have taken : Reachable extra (c₁.aside (take c₁.machine).2.2 rfl rfl).machine := by
      have left := (reachable.evaluate policy program).taken
      rw [← is] at left
      exact left
    obtain ⟨c₂, last, includes, others⟩ := ih codeRest taken
    have next : (c₁.aside (take c₁.machine).2.2 rfl rfl).machine
        = (take (evaluate policy program c.machine).2).2.2 := by
      rw [← is]
      rfl
    rw [next] at last others
    refine ⟨c₂, last, includes.trans since.includes, ?_⟩
    refine List.forall_mem_cons.2 ⟨fun v same => includes.explains (yields v same), others⟩

/-! ## What can be got hold of -/

/-- The values that can be got from a run: what its programs yielded, what the variables of its machine hold, and what
    is read from these. -/
inductive Found (run : List Step × Machine) : Value → Prop
  | yielded {step : Step} {v : Value} : step ∈ run.1 → step.outcome = .value v → Found run v
  | stored {t : Table} {entry : Variable} {v : Value} : t ∈ run.2.store.tables → entry ∈ t →
      entry.value = some v → Found run v
  | read {slot : Slot} {v : Value} : Found run (.slot slot) → run.2.store.read slot = .ok v → Found run v
  | blueprint {o : ObjectValue} : Found run (.object o) → Found run (.blueprint o.blueprint)
  | prototype {b : ClassValue} {f : FunctionValue} : Found run (.blueprint b) → f ∈ b.prototype →
      Found run (.function f)
  | classMember {b : ClassValue} {name : String} {slot : Slot} : Found run (.blueprint b) →
      run.2.store.classMember b name = .ok slot → Found run (.slot slot)
  | objectMember {o : ObjectValue} {name : String} {slot : Slot} : Found run (.object o) →
      run.2.store.objectMember o name = .ok slot → Found run (.slot slot)

/-- The history of the machine explains all that can be got from the run. -/
theorem Found.explained {run : List Step × Machine} {c : Chronicle part} (is : c.machine = run.2)
    (yields : ∀ step ∈ run.1, ∀ v, step.outcome = .value v → v.Explained part c.history) {v : Value}
    (found : Found run v) : v.Explained part c.history := by
  have values : run.2.store.Holds (·.Explained part c.history) := is ▸ c.values
  induction found with
  | yielded here same => exact yields _ here _ same
  | stored there here same => exact values _ there _ here _ same
  | read _ same explained => exact Store.explained_of_read values explained same
  | blueprint _ explained => exact explained.blueprint
  | prototype _ here explained => exact .made (explained.prototype _ here).1
  | classMember _ same => exact Store.explained_of_classMember same
  | objectMember _ same explained => exact Store.explained_of_objectMember explained same

/-- What one operation yields, an operation that differs in forgotten things yields but for these. -/
theorem exists_of_map_eq {α β : Type} {r r' : Except Fault α} {g : α → β} (same : r'.map g = r.map g) {a : α}
    (yields : r = .ok a) : ∃ a', r' = .ok a' ∧ g a' = g a := by
  rw [yields] at same
  cases r' with
  | ok a' => exact ⟨a', rfl, Except.ok.inj same⟩
  | error => cases same

theorem exists_mem_of_map_eq {α β : Type} {l l' : List α} {g : α → β} (same : l'.map g = l.map g) {a : α}
    (here : a ∈ l) : ∃ a' ∈ l', g a' = g a :=
  List.mem_map.1 (same ▸ List.mem_map_of_mem here)

/-- From two runs that differ in nothing but spans the same can be got, but for spans. -/
theorem Found.exists_erase {run run' : List Step × Machine} (steps : run'.1.map Step.erase = run.1.map Step.erase)
    (left : run'.2.erase = run.2.erase) {v : Value} (found : Found run v) :
    ∃ v', Found run' v' ∧ v'.erase = v.erase := by
  have store : run'.2.store.erase = run.2.store.erase := congrArg Machine.store left
  -- On how the value was got: each step has its counterpart in the other run, as erasing commutes with it.
  induction found with
  | @yielded step v here yields =>
    obtain ⟨step', here', same⟩ := exists_mem_of_map_eq steps here
    have outcome : step'.outcome.erase = .value v.erase := by
      have outcome := congrArg Step.outcome same
      simp only [Step.erase, yields] at outcome
      exact outcome
    cases yields' : step'.outcome with
    | value v' =>
      rw [yields'] at outcome
      exact ⟨v', .yielded here' yields', Outcome.value.inj outcome⟩
    | stopped =>
      rw [yields'] at outcome
      cases outcome
  | @stored t entry v there here holds =>
    have tables := congrArg (fun s : Store => s.tables.toList) store
    simp only [Store.erase, Array.toList_map] at tables
    obtain ⟨t', there', sameTable⟩ := exists_mem_of_map_eq tables (Array.mem_toList_iff.2 there)
    obtain ⟨entry', here', sameEntry⟩ := exists_mem_of_map_eq sameTable here
    have value : entry'.value.map (·.erase) = some v.erase := by
      rw [← Variable.value_erase, sameEntry, Variable.value_erase, holds]
      rfl
    obtain ⟨v', holds', same⟩ := Option.map_eq_some_iff.1 value
    exact ⟨v', .stored (Array.mem_toList_iff.1 there') here' holds', same⟩
  | @read slot v _ reads ih =>
    obtain ⟨_, found, alike⟩ := ih
    obtain ⟨slot', rfl, same⟩ := Value.slot_of_erase alike
    have both : (run'.2.store.read slot').map (·.erase) = (run.2.store.read slot).map (·.erase) := by
      rw [← Store.read_erase, ← Store.read_erase, store, same]
    obtain ⟨v', reads', same⟩ := exists_of_map_eq both reads
    exact ⟨v', .read found reads', same⟩
  | @blueprint o _ ih =>
    obtain ⟨_, found, alike⟩ := ih
    obtain ⟨o', rfl, same⟩ := Value.object_of_erase alike
    exact ⟨_, .blueprint found, congrArg Value.blueprint (congrArg ObjectValue.blueprint same)⟩
  | @prototype b f _ here ih =>
    obtain ⟨_, found, alike⟩ := ih
    obtain ⟨b', rfl, same⟩ := Value.blueprint_of_erase alike
    have functions : b'.prototype.map (·.erase) = b.prototype.map (·.erase) := congrArg ClassValue.prototype same
    obtain ⟨f', here', same⟩ := exists_mem_of_map_eq functions here
    exact ⟨_, .prototype found here', congrArg Value.function same⟩
  | @classMember b name slot _ reads ih =>
    obtain ⟨_, found, alike⟩ := ih
    obtain ⟨b', rfl, same⟩ := Value.blueprint_of_erase alike
    have both : (run'.2.store.classMember b' name).map (·.erase) = (run.2.store.classMember b name).map (·.erase) := by
      rw [← Store.classMember_erase, ← Store.classMember_erase, store, same]
    obtain ⟨slot', reads', same⟩ := exists_of_map_eq both reads
    exact ⟨_, .classMember found reads', congrArg Value.slot same⟩
  | @objectMember o name slot _ reads ih =>
    obtain ⟨_, found, alike⟩ := ih
    obtain ⟨o', rfl, same⟩ := Value.object_of_erase alike
    have both : (run'.2.store.objectMember o' name).map (·.erase)
        = (run.2.store.objectMember o name).map (·.erase) := by
      rw [← Store.objectMember_erase, ← Store.objectMember_erase, store, same]
    obtain ⟨slot', reads', same⟩ := exists_of_map_eq both reads
    exact ⟨_, .objectMember found reads', congrArg Value.slot same⟩

/-! ## Labels -/

/-- The label of a node: the number of its program and the path that leads to it, written as a span. -/
def label (i : Nat) (path : List Nat) : Span := ⟨⟨Encodable.encode (i :: path), 1, 1⟩, .none⟩

theorem label_inj {i j : Nat} {path path' : List Nat} (same : label i path = label j path') :
    i = j ∧ path = path' := by
  have offsets : (Encodable.encode (i :: path) : Int) = Encodable.encode (j :: path') :=
    congrArg (fun span : Span => span.first.offset) same
  exact List.cons.inj (Encodable.encode_injective (Int.ofNat_inj.1 offsets))

def labelled (programs : List Node) : List Node := programs.mapIdx fun i t => t.marked (label i)

def nodeAt (programs : List Node) (place : Nat × List Nat) : Option Node :=
  programs[place.1]?.bind (·.at? place.2)

theorem nodeAt_labelled (programs : List Node) (place : Nat × List Nat) :
    nodeAt (labelled programs) place =
      (nodeAt programs place).map fun n => n.marked fun path => label place.1 (place.2 ++ path) := by
  rw [nodeAt, nodeAt, labelled, List.getElem?_mapIdx]
  cases programs[place.1]? with
  | none => rfl
  | some t => exact t.at?_marked (label place.1) place.2

theorem erase_labelled (programs : List Node) : (labelled programs).map Node.erase = programs.map Node.erase := by
  refine List.ext_getElem? fun i => ?_
  rw [labelled, List.getElem?_map, List.getElem?_map, List.getElem?_mapIdx]
  cases programs[i]? with
  | none => rfl
  | some t => exact congrArg some (t.erase_marked (label i))

theorem sorted_labelled {programs : List Node} (sorted : ∀ t ∈ programs, t.Sorted) :
    ∀ t ∈ labelled programs, t.Sorted := by
  intro t here
  obtain ⟨i, bound, rfl⟩ := List.mem_mapIdx.1 here
  exact (sorted _ (List.getElem_mem bound)).marked _

/-- The place of a function declaration is the label of its body, without the last step. -/
theorem span_body_labelled {programs : List Node} {place : Nat × List Nat} {span : Span} {modifiers : Modifiers}
    {name : String} {params : List String} {body : Node}
    (found : nodeAt (labelled programs) place = some (.functionDeclaration span modifiers name params body))
    (present : body.isAbsent = false) : body.span = label place.1 (place.2 ++ [0]) := by
  rw [nodeAt_labelled] at found
  obtain ⟨n, -, marked⟩ := Option.map_eq_some_iff.1 found
  cases n with
  | functionDeclaration span' modifiers' name' params' body' =>
    obtain ⟨-, -, -, -, rfl⟩ := Node.functionDeclaration.inj marked
    exact Node.span_marked _ ((Node.isAbsent_marked _ body').symm.trans present)
  | _ => cases marked

/-! ## Functions of a run -/

section Functions

variable {programs : List Node} (sorted : ∀ t ∈ programs, t.Sorted) {policy : Policy} {extra : List Builtin}
  {f g : FunctionValue}

include sorted

theorem exists_chronicle (policy : Policy) (extra : List Builtin) :
    ∃ c : Chronicle (Node.Among programs), ∀ v, Found (runEach policy programs (start extra)) v →
      v.Explained (Node.Among programs) c.history := by
  obtain ⟨c, is⟩ := exists_start (Node.Among programs) extra
  have code : ∀ t ∈ programs, t.Evaluable (Node.Among programs) := fun t here =>
    ⟨⟨t, here, .self⟩, (sorted t here).plain⟩
  have reachable : Reachable extra c.machine := is ▸ .start
  obtain ⟨c', last, -, yields⟩ := runEach_explained (stock_of_sorted sorted) policy code reachable
  rw [is] at last yields
  exact ⟨c', fun v found => found.explained last yields⟩

/-- Functions that are the same are equal in all, stamp and closure included. -/
theorem same_iff_of_found (here : Found (runEach policy programs (start extra)) (.function f))
    (there : Found (runEach policy programs (start extra)) (.function g)) : f.same g = true ↔ f = g := by
  obtain ⟨c, explained⟩ := exists_chronicle sorted policy extra
  exact c.same_iff (stock_of_sorted sorted) (explained _ here) (explained _ there)

/-- One declaration is evaluated only once in one scope. -/
theorem eq_of_found (here : Found (runEach policy programs (start extra)) (.function f))
    (there : Found (runEach policy programs (start extra)) (.function g)) (user : f.native = none)
    (user' : g.native = none) (modifiers : f.modifiers = g.modifiers) (name : f.name = g.name)
    (closure : f.closure = g.closure) : f = g := by
  obtain ⟨c, explained⟩ := exists_chronicle sorted policy extra
  exact c.eq_of_closure (explained _ here) (explained _ there) user user' (congrArg Modifiers.ofMethod modifiers)
    name closure

theorem exists_nodeAt_of_found (here : Found (runEach policy programs (start extra)) (.function f))
    (user : f.native = none) :
    ∃ place d, nodeAt programs place = some d ∧ f.Stems d ∧ f.body.isAbsent = false := by
  obtain ⟨c, explained⟩ := exists_chronicle sorted policy extra
  obtain ⟨d, ⟨t, member, inside⟩, stems, present⟩ :=
    c.exists_declaration (stock_of_sorted sorted) (explained _ here) user
  obtain ⟨i, found⟩ := List.mem_iff_getElem?.1 member
  obtain ⟨path, leads⟩ := Node.inside_iff.1 inside
  exact ⟨(i, path), d, by rw [nodeAt, found, Option.bind_some, leads], stems, present⟩

end Functions

/-! ## Origins -/

/-- The function stems from the declaration at the place: in the run of the labelled programs it is made from the
    declaration that has the label of the place.  It is the same function in both runs if all is equal but for spans,
    as the stamp of a function is no other function's. -/
def StemsFrom (policy : Policy) (extra : List Builtin) (programs : List Node) (f : FunctionValue)
    (place : Nat × List Nat) : Prop :=
  ∃ f' d, Found (runEach policy (labelled programs) (start extra)) (.function f') ∧ f'.erase = f.erase ∧
    nodeAt (labelled programs) place = some d ∧ f'.Stems d

section Origins

variable {programs : List Node} (sorted : ∀ t ∈ programs, t.Sorted) {policy : Policy} {extra : List Builtin}
  {f g : FunctionValue} {place place' : Nat × List Nat}

/-- The function in the labelled run that a function is. -/
theorem exists_labelled (here : Found (runEach policy programs (start extra)) (.function f)) :
    ∃ f', Found (runEach policy (labelled programs) (start extra)) (.function f') ∧ f'.erase = f.erase := by
  obtain ⟨steps, left⟩ := runEach_erase policy (erase_labelled programs) (Eq.refl (start extra).erase)
  obtain ⟨v', found, alike⟩ := here.exists_erase steps left
  obtain ⟨f', rfl, same⟩ := Value.function_of_erase alike
  exact ⟨f', found, same⟩

theorem native_eq_of_erase {f' : FunctionValue} (same : f'.erase = f.erase) : f'.native = f.native := by
  obtain ⟨-, -, -, -, -, -, native⟩ := FunctionValue.mk.inj same
  exact native

/-- What a function stems from is a declaration of its name, parameters and modifiers, with its body but for spans. -/
theorem StemsFrom.declaration (stems : StemsFrom policy extra programs f place) :
    ∃ span body, nodeAt programs place = some (.functionDeclaration span f.modifiers f.name f.params body) ∧
      body.erase = f.body.erase := by
  obtain ⟨f', d, -, same, found, span, rfl⟩ := stems
  rw [nodeAt_labelled] at found
  obtain ⟨n, there, marked⟩ := Option.map_eq_some_iff.1 found
  cases n with
  | functionDeclaration span' modifiers' name' params' body' =>
    obtain ⟨-, modifiers, name, params, body⟩ := Node.functionDeclaration.inj marked
    refine ⟨span', body', ?_, ?_⟩
    · obtain ⟨-, ownName, ownParams, -, -, ownModifiers, -⟩ := FunctionValue.mk.inj same
      rw [there, modifiers, name, params, ownName, ownParams, ownModifiers]
    · rw [← FunctionValue.body_erase, ← same, FunctionValue.body_erase, ← body, Node.erase_marked]
  | _ => cases marked

include sorted

theorem exists_stemsFrom (here : Found (runEach policy programs (start extra)) (.function f))
    (user : f.native = none) : ∃ place, StemsFrom policy extra programs f place := by
  obtain ⟨f', found, same⟩ := exists_labelled here
  obtain ⟨place, d, there, stems, -⟩ := exists_nodeAt_of_found (sorted_labelled sorted) found
    ((native_eq_of_erase same).trans user)
  exact ⟨place, f', d, found, same, there, stems⟩

/-- The label of the body tells the place. -/
theorem StemsFrom.unique (user : f.native = none) (stems : StemsFrom policy extra programs f place)
    (stems' : StemsFrom policy extra programs f place') : place = place' := by
  obtain ⟨f₁, d₁, found₁, same₁, there₁, span₁, rfl⟩ := stems
  obtain ⟨f₂, d₂, found₂, same₂, there₂, span₂, rfl⟩ := stems'
  have one : f₁.same f₂ = true := by
    rw [← FunctionValue.same_erase, same₁, same₂]
    simp [FunctionValue.same]
  obtain rfl := (same_iff_of_found (sorted_labelled sorted) found₁ found₂).1 one
  obtain ⟨-, -, -, -, present⟩ := exists_nodeAt_of_found (sorted_labelled sorted) found₁
    ((native_eq_of_erase same₁).trans user)
  have labels := (span_body_labelled there₁ present).symm.trans (span_body_labelled there₂ present)
  obtain ⟨program, path⟩ := label_inj labels
  exact Prod.ext program (List.append_cancel_right path)

/-- Functions from one declaration that close over one scope are the same. -/
theorem StemsFrom.same (user : f.native = none) (user' : g.native = none)
    (stems : StemsFrom policy extra programs f place) (stems' : StemsFrom policy extra programs g place)
    (closure : f.closure = g.closure) : f.same g = true := by
  obtain ⟨f', d, found, same, there, span, rfl⟩ := stems
  obtain ⟨g', d', found', same', there', span', rfl⟩ := stems'
  obtain ⟨-, modifiers, name, -, -⟩ := Node.functionDeclaration.inj (Option.some.inj (there.symm.trans there'))
  obtain ⟨-, -, -, -, own, -, -⟩ := FunctionValue.mk.inj same
  obtain ⟨-, -, -, -, own', -, -⟩ := FunctionValue.mk.inj same'
  obtain rfl := eq_of_found (sorted_labelled sorted) found found' ((native_eq_of_erase same).trans user)
    ((native_eq_of_erase same').trans user') modifiers name (own.trans (closure.trans own'.symm))
  rw [← FunctionValue.same_erase, ← same, ← same']
  simp [FunctionValue.same]

end Origins

/-! ## Equality -/

/-- The operator `==` says that the functions are equal. -/
def Equal (f g : FunctionValue) : Prop := Operation.apply .equal (.function f) (.function g) = .ok (.boolean true)

theorem apply_equal_function (f g : FunctionValue) :
    Operation.apply .equal (.function f) (.function g) = .ok (.boolean (f.same g)) := rfl

theorem equal_iff_same {f g : FunctionValue} : Equal f g ↔ f.same g = true := by
  rw [Equal, apply_equal_function]
  constructor
  · intro same
    injection same with same
    injection same
  · intro same
    rw [same]

/-- What the operator `==` says about the functions that can be got from a run of programs. -/
structure FunctionIdentity (policy : Policy) (extra : List Builtin) (programs : List Node) : Prop where
  /-- Functions can always be compared. -/
  answers : ∀ f g : FunctionValue, Equal f g ∨
    Operation.apply .equal (.function f) (.function g) = .ok (.boolean false)
  /-- A function that is not of the host stems from one node of one program. -/
  origin : ∀ f, Found (runEach policy programs (start extra)) (.function f) → f.native = none →
    ∃! place, StemsFrom policy extra programs f place
  /-- That node is a declaration of the function. -/
  declaration : ∀ f place, StemsFrom policy extra programs f place → ∃ span body,
    nodeAt programs place = some (.functionDeclaration span f.modifiers f.name f.params body) ∧
      body.erase = f.body.erase
  /-- Such functions are equal if and only if they stem from one node and close over one scope. -/
  users : ∀ f g, Found (runEach policy programs (start extra)) (.function f) →
    Found (runEach policy programs (start extra)) (.function g) → f.native = none → g.native = none →
    ∀ place place', StemsFrom policy extra programs f place → StemsFrom policy extra programs g place' →
      (Equal f g ↔ place = place' ∧ f.closure = g.closure)
  /-- A function of the host equals itself alone. -/
  hosts : ∀ f g, Found (runEach policy programs (start extra)) (.function f) →
    Found (runEach policy programs (start extra)) (.function g) → f.native.isSome → (Equal f g ↔ f = g)
  /-- Methods that are read from objects are equal if and only if they are read from one object by one name. -/
  methods : ∀ o o', Found (runEach policy programs (start extra)) (.object o) →
    Found (runEach policy programs (start extra)) (.object o') → ∀ name name' f g,
      (runEach policy programs (start extra)).2.store.objectMember o name = .ok (.method f) →
      (runEach policy programs (start extra)).2.store.objectMember o' name' = .ok (.method g) →
      (Equal f g ↔ o.scope = o'.scope ∧ name = name')
  equivalence : Equivalence fun f g : { f // Found (runEach policy programs (start extra)) (.function f) } =>
    Equal f.1 g.1

/-- After any accepted programs, functions are equal if and only if they are one: of one declaration and bound to one
    scope. -/
theorem runEach_functions {sources : List (List UInt8)} (accepted : ∀ source ∈ sources, (parseSource source).2 = [])
    (policy : Policy) (extra : List Builtin) :
    FunctionIdentity policy extra (sources.map fun source => (parseSource source).1) := by
  have sorted : ∀ t ∈ sources.map fun source => (parseSource source).1, t.Sorted := by
    intro t here
    obtain ⟨source, member, rfl⟩ := List.mem_map.1 here
    exact sorted_of_accepted (accepted source member)
  have identical {f g : FunctionValue}
      (here : Found (runEach policy (sources.map fun source => (parseSource source).1) (start extra)) (.function f))
      (there : Found (runEach policy (sources.map fun source => (parseSource source).1) (start extra)) (.function g)) :
      Equal f g ↔ f = g :=
    equal_iff_same.trans (same_iff_of_found sorted here there)
  exact {
    answers := by
      intro f g
      rw [Equal, apply_equal_function]
      cases f.same g with
      | true => exact .inl rfl
      | false => exact .inr rfl
    origin := by
      intro f here user
      obtain ⟨place, stems⟩ := exists_stemsFrom sorted here user
      exact ⟨place, stems, fun place' stems' => stems'.unique sorted user stems⟩
    declaration := fun f place stems => stems.declaration
    users := by
      intro f g here there user user' place place' stems stems'
      constructor
      · intro equal
        obtain rfl := (identical here there).1 equal
        exact ⟨stems.unique sorted user stems', rfl⟩
      · rintro ⟨rfl, closure⟩
        exact equal_iff_same.2 (stems.same sorted user user' stems' closure)
    hosts := fun f g here there _ => identical here there
    methods := by
      intro o o' here there name name' f g reads reads'
      have found : Found _ (.function f) := .read (.objectMember here reads) rfl
      have found' : Found _ (.function g) := .read (.objectMember there reads') rfl
      rw [identical found found']
      obtain ⟨c, explained⟩ := exists_chronicle sorted policy extra
      obtain ⟨f', member, rfl, rfl⟩ := Store.exists_of_objectMember reads
      obtain ⟨g', member', rfl, rfl⟩ := Store.exists_of_objectMember reads'
      obtain ⟨made, method, -⟩ := (explained _ here).blueprint.prototype f' member
      obtain ⟨made', method', -⟩ := (explained _ there).blueprint.prototype g' member'
      have user : f'.native = none := c.native_eq_none made method
      have user' : g'.native = none := c.native_eq_none made' method'
      constructor
      · intro same
        obtain ⟨-, name, -, -, scope, -, -⟩ := FunctionValue.mk.inj same
        exact ⟨scope, name⟩
      · rintro ⟨scope, name⟩
        exact c.eq_of_closure (explained _ found) (explained _ found') user user' (method.trans method'.symm) name
          scope
    equivalence := {
      refl := fun f => (identical f.2 f.2).2 rfl
      symm := fun {f g} equal => (identical g.2 f.2).2 ((identical f.2 g.2).1 equal).symm
      trans := fun {f g h} first second =>
        (identical f.2 h.2).2 (((identical f.2 g.2).1 first).trans ((identical g.2 h.2).1 second)) } }

def globalFunction? (m : Machine) (name : String) : Option FunctionValue :=
  match ((globals m).get? name).bind (·.value) with
  | some (.function f) => some f
  | _ => none

theorem Found.of_globalFunction? {run : List Step × Machine} {name : String} {f : FunctionValue}
    (holds : globalFunction? run.2 name = some f) : Found run (.function f) := by
  rw [globalFunction?] at holds
  split at holds
  case h_1 g value =>
    cases holds
    obtain ⟨entry, there, value⟩ := Option.bind_eq_some_iff.1 value
    have here : entry ∈ run.2.store.table run.2.root.table := (Table.mem_of_get? there).1
    rcases Store.WellFormed.table_mem_or_nil run.2.store run.2.root.table with member | empty
    · exact .stored member here value
    · rw [empty] at here
      cases here
  case h_2 => cases holds

def shelfText : List UInt8 := "var g = 0\nvar h = 0".toUTF8.data.toList

def shelveText : List UInt8 :=
  "h = g\nif (true) \x7b function f() \x7b print(1) \x7d g = f \x7d".toUTF8.data.toList

/-- The program is run twice: its two functions have all in common that stands in their texts, spans included, and are
    not equal. -/
theorem runEach_functions_shelveText :
    let sources := [shelfText, shelveText, shelveText]
    let run := runEach {} (sources.map fun source => (parseSource source).1) (start [])
    (∀ source ∈ sources, (parseSource source).2 = []) ∧
      ∃ f g, Found run (.function f) ∧ Found run (.function g) ∧ f.name = g.name ∧ f.body.span = g.body.span ∧
        ¬ Equal f g ∧ Equal f f := by
  intro sources run
  have accepted : ∀ source ∈ sources, (parseSource source).2 = [] := by decide +kernel
  have identity := runEach_functions accepted {} []
  have later : (globalFunction? run.2 "g").isSome := by decide +kernel
  have earlier : (globalFunction? run.2 "h").isSome := by decide +kernel
  obtain ⟨f, isF⟩ := Option.isSome_iff_exists.1 later
  obtain ⟨g, isG⟩ := Option.isSome_iff_exists.1 earlier
  have names : (globalFunction? run.2 "g").map (·.name) = (globalFunction? run.2 "h").map (·.name) := by
    decide +kernel
  have spans : (globalFunction? run.2 "g").map (·.body.span) = (globalFunction? run.2 "h").map (·.body.span) := by
    decide +kernel
  have closures : (globalFunction? run.2 "g").map (·.closure) ≠ (globalFunction? run.2 "h").map (·.closure) := by
    decide +kernel
  have written : (globalFunction? run.2 "g").map (·.native.isNone) = some true ∧
      (globalFunction? run.2 "h").map (·.native.isNone) = some true := by
    decide +kernel
  -- The two functions are not spelt out: what is needed of them has been evaluated under `Option.map`.
  simp only [isF, isG, Option.map_some, Option.some.injEq, ne_eq,
    Option.isNone_iff_eq_none] at names spans closures written
  have foundF : Found run (.function f) := .of_globalFunction? isF
  have foundG : Found run (.function g) := .of_globalFunction? isG
  obtain ⟨place, stemsF, -⟩ := identity.origin f foundF written.1
  obtain ⟨place', stemsG, -⟩ := identity.origin g foundG written.2
  refine ⟨accepted, f, g, foundF, foundG, names, spans, fun equal => ?_, identity.equivalence.refl ⟨f, foundF⟩⟩
  exact closures ((identity.users f g foundF foundG written.1 written.2 place place' stemsF stemsG).1 equal).2

end Interpreter

end ClassScript
