import ClassScript.Fault
import ClassScript.Number.Power

/-! # Binary operators

Integer arithmetic wraps at 64 bits. An integer beside a double becomes a double, division always
gives one, and so does a negative exponent. Comparisons order numbers only; equality also takes
booleans, null, and functions, classes and objects, the last three by identity. Logical operators
take booleans.
-/

namespace ClassScript.Operation

def toDouble? : Value → Option Float
  | .integer value => some (Number.ofInt value.toInt)
  | .double value => some value
  | _ => none

def doubles? (left right : Value) : Option (Float × Float) :=
  match toDouble? left, toDouble? right with
  | some l, some r => some (l, r)
  | _, _ => none

def onIntegers? (op : BinaryOp) (l r : Int64) : Option Int64 :=
  match op with
  | .add => some (l + r)
  | .sub => some (l - r)
  | .mul => some (l * r)
  | .pow => if 0 ≤ r then some (Number.powInteger l r) else none
  | _ => none

def onDoubles (op : BinaryOp) (l r : Float) : Float :=
  match op with
  | .add => l + r
  | .sub => l - r
  | .mul => l * r
  | .div => l / r
  | _ => Number.pow l r

def mismatch (op : BinaryOp) (left right : Value) : Except Fault Value :=
  .error (.operands op left.kind right.kind)

def integers? (op : BinaryOp) (left right : Value) : Option Int64 :=
  match left, right with
  | .integer l, .integer r => onIntegers? op l r
  | _, _ => none

def arithmetic (op : BinaryOp) (left right : Value) : Except Fault Value :=
  match integers? op left right with
  | some value => .ok (.integer value)
  | none =>
    match doubles? left right with
    | some (l, r) => .ok (.double (onDoubles op l r))
    | none => mismatch op left right

def satisfies (op : BinaryOp) (o : Ordering) : Bool :=
  match op with
  | .bigger => o = .gt
  | .smaller => o = .lt
  | .biggerEqual => o ≠ .lt
  | _ => o ≠ .gt

def compareIntegers (l r : Int64) : Ordering :=
  if l < r then .lt else if r < l then .gt else .eq

def compareDoubles (l r : Float) : Ordering :=
  if l < r then .lt else if r < l then .gt else .eq

/-- Comparison of two numbers; nothing compares with what is no number. -/
def compare (op : BinaryOp) (left right : Value) : Except Fault Value :=
  match left, right with
  | .integer l, .integer r => .ok (.boolean (satisfies op (compareIntegers l r)))
  | _, _ =>
    match doubles? left right with
    | some (l, r) =>
      if l.isNaN || r.isNaN then .ok (.boolean false)
      else .ok (.boolean (satisfies op (compareDoubles l r)))
    | none => mismatch op left right

/-- Whether two values are equal, if they can be compared at all. Null compares with everything. -/
def equal? (left right : Value) : Option Bool :=
  match left, right with
  | .null, .null => some true
  | .null, _ | _, .null => some false
  | .integer l, .integer r => some (l = r)
  | .boolean l, .boolean r => some (l = r)
  | .function l, .function r => some (l.same r)
  | .blueprint l, .blueprint r => some (l.members = r.members)
  | .object l, .object r => some (l.scope = r.scope)
  | _, _ => (doubles? left right).map fun (l, r) => l == r

def logical (op : BinaryOp) (left right : Value) : Except Fault Value :=
  match left, right with
  | .boolean l, .boolean r => .ok (.boolean (if op = .and then l && r else l || r))
  | _, _ => mismatch op left right

def apply (op : BinaryOp) (left right : Value) : Except Fault Value :=
  match op with
  | .add | .sub | .mul | .div | .pow => arithmetic op left right
  | .bigger | .smaller | .biggerEqual | .smallerEqual => compare op left right
  | .equal =>
    match equal? left right with
    | some equal => .ok (.boolean equal)
    | none => mismatch op left right
  | .and | .or => logical op left right
  | .unknown => mismatch op left right

end ClassScript.Operation
