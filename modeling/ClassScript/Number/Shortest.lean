import ClassScript.Number.Binary

/-! # The shortest decimal of a double

Among the decimals that read back as a given double, take those with the fewest digits and of them
the nearest, a tie going to the even last digit. The search goes down through the powers of ten: on
the grid of multiples of `10 ^ e` only the two neighbours of the double can read back, and the first
grid with one that does has the fewest digits.
-/

namespace ClassScript.Number

/-- The number `digits * 10 ^ exponent`. -/
structure Decimal where
  digits : Nat
  exponent : Int
  deriving DecidableEq, Repr

/-- The numbers that round to a positive double, in units of a quarter of its last place: its
    bounds, the double itself, and whether the bounds round to it too. -/
structure Interval where
  low : Nat
  value : Nat
  high : Nat
  closed : Bool
  /-- The exponent of the unit. -/
  exponent : Int
  deriving DecidableEq, Repr

/-- The interval of a positive double. Below a power of two the next double is half as far. -/
def Interval.ofBinary (b : Binary) : Interval where
  low :=
    if b.mantissa = Nat.pow 2 52 && -1074 < b.exponent then 4 * b.mantissa - 1
    else 4 * b.mantissa - 2
  value := 4 * b.mantissa
  high := 4 * b.mantissa + 2
  closed := b.mantissa % 2 = 0
  exponent := b.exponent - 2

/-- Factors `a` and `b` such that `d * 10 ^ e` against `x * 2 ^ q` is `d * a` against `x * b`. -/
def crossFactors (e q : Int) : Nat × Nat :=
  (Nat.pow 10 e.toNat * Nat.pow 2 (-q).toNat, Nat.pow 2 q.toNat * Nat.pow 10 (-e).toNat)

/-- The multiple of `10 ^ e` that stands for the double, if one of its two neighbours does. -/
def Interval.onGrid? (i : Interval) (e : Int) : Option Nat :=
  let (a, b) := crossFactors e i.exponent
  let inside (d : Nat) : Bool :=
    if i.closed then i.low * b ≤ d * a && d * a ≤ i.high * b
    else i.low * b < d * a && d * a < i.high * b
  let below := i.value * b / a
  let above := below + 1
  match inside below, inside above with
  | true, true =>
    let down := i.value * b - below * a
    let up := above * a - i.value * b
    some (if down < up || (down = up && below % 2 = 0) then below else above)
  | true, false => some below
  | false, true => some above
  | false, false => none

/-- The first grid that has a decimal for the double, going down from `10 ^ e`. -/
def Interval.search (i : Interval) : (fuel : Nat) → (e : Int) → Decimal
  | 0, e => ⟨(i.onGrid? e).getD 0, e⟩
  | fuel + 1, e =>
    match i.onGrid? e with
    | some d => ⟨d, e⟩
    | none => i.search fuel (e - 1)

def Decimal.strip : (fuel : Nat) → Decimal → Decimal
  | 0, d => d
  | fuel + 1, d =>
    if d.digits ≠ 0 && d.digits % 10 = 0 then strip fuel ⟨d.digits / 10, d.exponent + 1⟩ else d

def shortest (x : Float) : Decimal :=
  let b := Binary.ofFloat x
  if b.mantissa = 0 then ⟨0, 0⟩
  else
    let power : Int := (Nat.log2 b.mantissa : Int) + 1 + b.exponent
    ((Interval.ofBinary b).search 25 (power * 30103 / 100000 + 2)).strip 25

end ClassScript.Number
