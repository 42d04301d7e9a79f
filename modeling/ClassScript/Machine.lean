import ClassScript.Store

/-! # The machine

The state of a running program: its store, the root scope, what it has written and what it has
done that is worth a note. An evaluation (`Eval`) takes a machine to a machine and yields a value,
or stops for one of four reasons. What happened before it stopped stays.
-/

namespace ClassScript

structure Policy where
  /-- Whether a logical operator skips its right operand when the left one decides. -/
  shortCircuit : Bool := false
  /-- How many bytes may be written in all, if there is a limit. -/
  outputLimit : Option Int := none
  deriving DecidableEq, Repr, Inhabited

inductive Event
  | called (function : String) (arguments : Nat)
  | declaredClass (name : String) (statics methods fields : Nat)
  | createdObject (className : String) (fields : Nat)
  deriving DecidableEq, Repr, Inhabited

/-- The state of a running program. -/
structure Machine where
  store : Store
  /-- The scope of top-level declarations. -/
  root : Scope
  /-- How many functions were made. -/
  stamps : Nat
  /-- What was written since the output was last taken. -/
  output : String
  /-- How many bytes were written in all. -/
  written : Nat
  /-- What happened since the events were last taken. -/
  events : Array Event
  deriving Inhabited

def Machine.mapStore (f : Store → Store) : Machine → Machine
  | ⟨store, root, stamps, output, written, events⟩ =>
    ⟨f store, root, stamps, output, written, events⟩

inductive Stop
  /-- A runtime error. -/
  | failure (failure : Failure)
  /-- The world outside of the program failed. -/
  | host (message : String)
  /-- The node has no meaning: it wants a variable and holds no identifier, or it is a class with a
      member that is no declaration. -/
  | stuck
  /-- The budget is used up. -/
  | exhausted
  deriving DecidableEq, Repr

namespace Stop

/-- Blame a runtime error on a span, unless it has one already. -/
def blame (s : Stop) (span : Span) : Stop :=
  match s with
  | .failure f => .failure (f.blame span)
  | stop => stop

def text : Stop → String
  | .failure f => f.text
  | .host message => message
  | .stuck => "variable expected"
  | .exhausted => "evaluation budget exhausted"

end Stop

abbrev Eval := EStateM Stop Machine

namespace Eval

theorem bind_apply {α β : Type} (x : Eval α) (k : α → Eval β) (machine : Machine) :
    (x >>= k) machine = match x machine with
      | .ok a machine' => k a machine'
      | .error stop machine' => .error stop machine' := by
  change EStateM.bind x k machine = _
  rw [EStateM.bind.eq_def]
  cases x machine <;> rfl

def fail {α : Type} (fault : Fault) : Eval α := throw (.failure ⟨fault, .none⟩)

def ofExcept {α : Type} : Except Fault α → Eval α
  | .ok a => pure a
  | .error fault => fail fault

/-- Blame the runtime error of an evaluation on a span, unless it has one already. -/
def blaming {α : Type} (span : Span) (x : Eval α) : Eval α := fun machine =>
  match x machine with
  | .ok a machine => .ok a machine
  | .error stop machine => .error (stop.blame span) machine

def query {α : Type} (f : Store → Except Fault α) : Eval α := fun machine =>
  ofExcept (f machine.store) machine

def plain (value : Value) : Eval Value := query (·.plain value)

def write (slot : Slot) (value : Value) : Eval Unit :=
  modify (·.mapStore (·.write slot value))

def declare (scope : Scope) (name : String) (type : DeclaredType) : Eval Slot := fun machine =>
  if (machine.store.declared scope).has name then fail (.redeclared name) machine
  else
    .ok (.stored scope.table name)
      (machine.mapStore (·.modifyTable scope.table (·.add name type)))

def nested (scope : Scope) : Eval Scope := fun machine =>
  let inner := machine.store.inner (some scope)
  .ok inner (machine.mapStore (Store.grow inner))

def stamp : Eval Nat := fun machine =>
  .ok machine.stamps { machine with stamps := machine.stamps + 1 }

def note (event : Event) : Eval Unit :=
  modify fun machine => { machine with events := machine.events.push event }

/-- Whether a text may still be written; the empty text always may. -/
def fits (policy : Policy) (machine : Machine) (text : String) : Bool :=
  match policy.outputLimit with
  | none => true
  | some limit => text.isEmpty || (machine.written + text.utf8ByteSize : Int) ≤ limit

/-- Write a text and tell whether that went well. A text that does not fit is not written at
    all. -/
def emit (policy : Policy) (text : String) : Eval Bool := fun machine =>
  if fits policy machine text then
    .ok true { machine with
      output := machine.output ++ text
      written := machine.written + text.utf8ByteSize }
  else .ok false machine

/-- Go on round by round until one says to stop, at most `budget` times. -/
def rounds : Nat → Eval Bool → Eval Unit
  | 0, _ => throw .exhausted
  | budget + 1, round => do
    if ← round then rounds budget round

end Eval

end ClassScript
