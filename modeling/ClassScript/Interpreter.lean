import ClassScript.Evaluator

/-! # The interpreter

A machine is set up with the functions of the host and then runs one program after another. All of
them share its root scope, so what one declares the next can use.
-/

namespace ClassScript

namespace Interpreter

/-- A function that the host adds: its name, and what it does. -/
structure Builtin where
  name : String
  native : Native

def builtins : List Builtin :=
  [⟨"print", .print ""⟩, ⟨"println", .print "\n"⟩]

def blank : Machine :=
  let (root, store) := Store.empty.nest none
  { store, root, stamps := 0, output := "", written := 0, events := #[] }

/-- Declare a function of the host in the root scope. An earlier one of the same name is replaced in
    its place. -/
def install (machine : Machine) (builtin : Builtin) : Machine :=
  let declared :=
    match machine.store.declare machine.root builtin.name .function with
    | .ok store => store
    | .error _ => machine.store
  let f : FunctionValue :=
    ⟨machine.stamps, builtin.name, [], .absent, machine.root, {}, some builtin.native⟩
  { machine with
    store := declared.write (.stored machine.root.table builtin.name) (.function f)
    stamps := machine.stamps + 1 }

def start (extra : List Builtin) : Machine :=
  (builtins ++ extra).foldl install blank

/-- The budget of an evaluation, which no program that ends comes near. -/
def budget : Nat := 1152921504606846976

inductive Outcome
  | value (value : Value)
  | stopped (stop : Stop)

def evaluate (policy : Policy) (node : Node) (machine : Machine) : Outcome × Machine :=
  match Evaluator.eval policy budget node machine.root machine with
  | .ok value machine => (.value value, machine)
  | .error stop machine => (.stopped stop, machine)

def globals (machine : Machine) : Table := machine.store.declared machine.root

def take (machine : Machine) : String × List Event × Machine :=
  (machine.output, machine.events.toList, { machine with output := "", events := #[] })

end Interpreter

end ClassScript
