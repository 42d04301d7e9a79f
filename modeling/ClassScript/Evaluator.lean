import ClassScript.Machine
import ClassScript.Operation

/-! # Evaluation

Each rule says what one kind of node yields, given a way to evaluate the nodes in it; `eval` ties
the rules together. An identifier yields the variable it names, and whatever needs a value reads
the variable. An error is blamed on the innermost node with a location that observed it.

Evaluation has a budget: the depth of nodes within nodes and calls within calls, and the number of
rounds of each loop, are bounded by it. Running out is an outcome of its own and a larger budget
never changes any other.
-/

namespace ClassScript

namespace Evaluator

abbrev Recursion := Node → Scope → Eval Value

/-! ## Parts of nodes -/

def value (rec : Recursion) (node : Node) (scope : Scope) : Eval Value := do
  Eval.blaming node.span (Eval.plain (← rec node scope))

def values (rec : Recursion) (scope : Scope) : List Node → Eval (List Value)
  | [] => pure []
  | node :: rest => return (← value rec node scope) :: (← values rec scope rest)

def each (rec : Recursion) (scope : Scope) : List Node → Eval Unit
  | [] => pure ()
  | node :: rest => do
    let _ ← rec node scope
    each rec scope rest

def truth : Value → Except Fault Bool
  | .boolean value => .ok value
  | value => .error (.condition value.kind)

/-- The truth of a condition. One that is left out holds. -/
def condition (rec : Recursion) (node : Node) (scope : Scope) : Eval Bool := do
  if node.isAbsent then return true
  let found ← value rec node scope
  Eval.blaming node.span (Eval.ofExcept (truth found))

def target (rec : Recursion) (node : Node) (scope : Scope) : Eval Slot := do
  match node with
  | .identifier .. =>
    match ← rec node scope with
    | .slot slot => return slot
    | _ => throw .stuck
  | _ => throw .stuck

/-! ## Expressions -/

def statements (rec : Recursion) (scope : Scope) (result : Value) : List Node → Eval Value
  | [] => pure result
  | node :: rest => do statements rec scope (← rec node scope) rest

def decides (op : BinaryOp) (left : Bool) : Bool :=
  (op = .and && !left) || (op = .or && left)

def binary (policy : Policy) (rec : Recursion) (op : BinaryOp) (left right : Node)
    (scope : Scope) : Eval Value := do
  let l ← value rec left scope
  if policy.shortCircuit && (op = .and || op = .or) then
    match l with
    | .boolean b =>
      if decides op b then return l
    | _ => Eval.fail (.logicalOperand op l.kind)
  let r ← value rec right scope
  Eval.ofExcept (Operation.apply op l r)

def identifier (rec : Recursion) (parent : Node) (name : String) (scope : Scope) : Eval Value := do
  if parent.isAbsent then return .slot (← Eval.query (·.lookup scope name))
  match ← value rec parent scope with
  | .blueprint c => return .slot (← Eval.query (·.classMember c name))
  | .object o => return .slot (← Eval.query (·.objectMember o name))
  | found => Eval.fail (.memberOf name found.kind)

def usage (rec : Recursion) (node : Node) (scope : Scope) : Eval Value := do
  let slot ← target rec node scope
  Eval.query (·.read slot)

/-- An assignment: the variable is found first, then the operand is evaluated, and only then is the
    old value read. -/
def assignment (rec : Recursion) (op : AssignOp) (variableNode operandNode : Node)
    (scope : Scope) : Eval Value := do
  let slot ← target rec variableNode scope
  let operand ←
    if operandNode.isAbsent then pure (.integer 1) else value rec operandNode scope
  let result ←
    match op.arithmetic? with
    | none => pure operand
    | some arithmetic => do
      let current ← Eval.query (·.read slot)
      Eval.ofExcept (Operation.apply arithmetic current operand)
  Eval.write slot result
  return result

/-! ## Calls -/

def bindAll (frame : Scope) : List (String × Value) → Eval Unit
  | [] => pure ()
  | (name, argument) :: rest => do
    Eval.write (← Eval.declare frame name .dynamic) argument
    bindAll frame rest

/-- Let a function of the host go on. It gets its arguments unevaluated. -/
def serve (policy : Policy) (rec : Recursion) (arguments : List Node) (scope : Scope) :
    Host → Eval Unit
  | .returns => pure ()
  | .fails message => throw (.host message)
  | .writes text next => do
    let wrote ← Eval.emit policy text
    serve policy rec arguments scope (next wrote)
  | .evaluates argument next =>
    match arguments[argument]? with
    | none => serve policy rec arguments scope (next none)
    | some node => do
      let found ← rec node scope
      let store := (← get).store
      serve policy rec arguments scope (next (some (found.kind, store.text found)))
  | .looks next => do
    let store := (← get).store
    serve policy rec arguments scope (next (store.view scope))

def callNative (policy : Policy) (rec : Recursion) (native : Native) (arguments : List Node)
    (scope : Scope) : Eval Unit := do
  match native with
  | .print ending =>
    let found ← values rec scope arguments
    let wrote ← Eval.emit policy (", ".intercalate (found.map Value.text) ++ ending)
    unless wrote do throw (.host "write output: sink full")
  | .host act => serve policy rec arguments scope (act arguments.length)

/-- Call a function: arguments are evaluated where the call stands, and the body in a new scope
    within the one that the function closes over. -/
def invoke (policy : Policy) (rec : Recursion) (f : FunctionValue) (arguments : List Node)
    (scope : Scope) : Eval Unit := do
  Eval.note (.called f.name arguments.length)
  match f.native with
  | some native => callNative policy rec native arguments scope
  | none =>
    if arguments.length ≠ f.params.length then
      Eval.fail (.argumentCount f.name f.params.length arguments.length)
    let found ← values rec scope arguments
    let frame ← Eval.nested f.closure
    bindAll frame (f.params.zip found)
    let _ ← rec f.body frame

def call (policy : Policy) (rec : Recursion) (callee : Node) (arguments : List Node)
    (scope : Scope) : Eval Value := do
  match ← value rec callee scope with
  | .function f =>
    invoke policy rec f arguments scope
    return .null
  | found => Eval.fail (.notCallable found.kind)

/-! ## Classes and objects -/

def instantiate (rec : Recursion) (c : ClassValue) : Eval ObjectValue := do
  let scope ← Eval.nested c.members
  each rec scope c.fields
  let fields := ((← get).store.declared scope).length
  Eval.note (.createdObject c.name fields)
  return ⟨c, scope⟩

/-- The object of a class; nothing is handed to it. -/
def instantiation (rec : Recursion) (blueprint : Node) (arguments : List Node) (scope : Scope) :
    Eval Value := do
  match ← value rec blueprint scope with
  | .blueprint c =>
    if !arguments.isEmpty then Eval.fail (.constructorArguments c.name arguments.length)
    return .object (← instantiate rec c)
  | found => Eval.fail (.notInstantiable found.kind)

def newFunction (modifiers : Modifiers) (name : String) (params : List String) (body : Node)
    (closure : Scope) : Eval FunctionValue := do
  return ⟨← Eval.stamp, name, params, body, closure, modifiers, none⟩

def member (rec : Recursion) (node : Node) (scope : Scope) : Eval Value :=
  match node with
  | .variableDeclaration .. | .functionDeclaration .. | .classDeclaration .. => rec node scope
  | _ => throw .stuck

/-- Whether a declaration is static. What is no declaration has no place in a class and counts as
    static, so that the class is not made. -/
def isStatic : Node → Bool
  | .variableDeclaration _ modifiers _ _ _ | .functionDeclaration _ modifiers _ _ _
  | .classDeclaration _ modifiers _ _ _ _ => modifiers.isStatic
  | _ => true

/-- The functions of a class: static ones are declared in the member scope, and the others are
    collected, each name once. -/
def methods (rec : Recursion) (className : String) (members : Scope)
    (collected : List FunctionValue) : List Node → Eval (List FunctionValue)
  | [] => pure collected
  | node :: rest => do
    match node with
    | .functionDeclaration span modifiers name params body =>
      if modifiers.isStatic then
        let _ ← rec node members
        methods rec className members collected rest
      else if collected.any (·.name = name) then
        throw (.failure ⟨.redeclaredMethod name className, span⟩)
      else
        let f ← newFunction modifiers name params body members
        methods rec className members (collected ++ [f]) rest
    | _ => throw .stuck

/-- A new class. Nested classes come first, then functions, then static fields, so that the initial
    value of a static field can use every other member. -/
def newClass (rec : Recursion) (modifiers : Modifiers) (name : String)
    (fields functions classes : List Node) (scope : Scope) : Eval ClassValue := do
  let members ← Eval.nested scope
  each (member rec) members classes
  let prototype ← methods rec name members [] functions
  each (member rec) members (fields.filter isStatic)
  let instanceFields := fields.filter (!isStatic ·)
  let statics := ((← get).store.declared members).length
  Eval.note (.declaredClass name statics prototype.length instanceFields.length)
  return ⟨name, modifiers, members, prototype, instanceFields⟩

/-! ## Declarations and control flow -/

def variableDeclaration (rec : Recursion) (name : String) (type : DeclaredType) (initial : Node)
    (scope : Scope) : Eval Value := do
  let _ ← Eval.declare scope name type
  rec initial scope

def functionDeclaration (modifiers : Modifiers) (name : String) (params : List String)
    (body : Node) (scope : Scope) : Eval Value := do
  let slot ← Eval.declare scope name .function
  let f ← newFunction modifiers name params body scope
  Eval.write slot (.function f)
  return .function f

/-- Declare a class and yield it. The name has no value while the members are evaluated. -/
def classDeclaration (rec : Recursion) (modifiers : Modifiers) (name : String)
    (fields functions classes : List Node) (scope : Scope) : Eval Value := do
  let slot ← Eval.declare scope name .blueprint
  let c ← newClass rec modifiers name fields functions classes scope
  Eval.write slot (.blueprint c)
  return .blueprint c

def block (rec : Recursion) (body : Node) (scope : Scope) : Eval Unit := do
  let _ ← rec body (← Eval.nested scope)

def whileLoop (rec : Recursion) (budget : Nat) (test body : Node) (scope : Scope) :
    Eval Value := do
  Eval.rounds budget do
    if ← condition rec test scope then
      block rec body scope
      return true
    return false
  return .null

def doWhileLoop (rec : Recursion) (budget : Nat) (test body : Node) (scope : Scope) :
    Eval Value := do
  Eval.rounds budget do
    block rec body scope
    condition rec test scope
  return .null

/-- A counting loop: the declaration has a scope of its own, and the body of each round one within
    it. -/
def forLoop (rec : Recursion) (budget : Nat) (declaration test round body : Node)
    (scope : Scope) : Eval Value := do
  let loop ← Eval.nested scope
  let _ ← rec declaration loop
  Eval.rounds budget do
    if ← condition rec test loop then
      block rec body loop
      let _ ← rec round loop
      return true
    return false
  return .null

/-- A branch: condition and bodies share one new scope. -/
def branch (rec : Recursion) (test body alternative : Node) (scope : Scope) : Eval Value := do
  let inner ← Eval.nested scope
  if ← condition rec test inner then rec body inner else rec alternative inner

/-! ## All nodes -/

/-- What a node yields, given how the nodes in it are evaluated and how many rounds a loop may
    take. -/
def rule (policy : Policy) (rec : Recursion) (budget : Nat) (node : Node) (scope : Scope) :
    Eval Value :=
  match node with
  | .absent | .null _ => pure .null
  | .foreign _ typeName => Eval.fail (.foreignNode typeName)
  | .tree _ children => statements rec scope .null children
  | .integer _ value => pure (.integer value)
  | .double _ value => pure (.double value)
  | .boolean _ value => pure (.boolean value)
  | .binary _ op left right => binary policy rec op left right scope
  | .identifier _ parent name => identifier rec parent name scope
  | .usage _ target => usage rec target scope
  | .assignment _ op target value => assignment rec op target value scope
  | .call _ callee arguments => call policy rec callee arguments scope
  | .instantiation _ blueprint arguments => instantiation rec blueprint arguments scope
  | .variableDeclaration _ _ name type initial => variableDeclaration rec name type initial scope
  | .whileLoop _ test body => whileLoop rec budget test body scope
  | .doWhileLoop _ test body => doWhileLoop rec budget test body scope
  | .forLoop _ declaration test round body => forLoop rec budget declaration test round body scope
  | .branch _ test body alternative => branch rec test body alternative scope
  | .functionDeclaration _ modifiers name params body =>
    functionDeclaration modifiers name params body scope
  | .classDeclaration _ modifiers name fields functions classes =>
    classDeclaration rec modifiers name fields functions classes scope

def eval (policy : Policy) : Nat → Node → Scope → Eval Value
  | 0, _, _ => throw .exhausted
  | budget + 1, node, scope =>
    Eval.blaming node.span (rule policy (eval policy budget) budget node scope)

end Evaluator

end ClassScript
