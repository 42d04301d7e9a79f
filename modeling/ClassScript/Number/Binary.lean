/-! # Doubles as binary fractions

A finite double is a whole number times a power of two. `Binary.ofFloat` takes a double apart, and
`nearest` finds the double closest to a quotient of whole numbers, a tie going to the even
neighbour. Both work on whole numbers only.
-/

namespace ClassScript.Number

/-- The number `mantissa * 2 ^ exponent`, negated if `negative`. -/
structure Binary where
  negative : Bool
  mantissa : Nat
  exponent : Int
  deriving DecidableEq, Repr

def Binary.ofFloat (x : Float) : Binary :=
  let bits := x.toBits.toNat
  let biased : Nat := bits / Nat.pow 2 52 % Nat.pow 2 11
  let fraction : Nat := bits % Nat.pow 2 52
  { negative := Nat.pow 2 63 ≤ bits
    mantissa := if biased = 0 then fraction else Nat.pow 2 52 + fraction
    exponent := if biased = 0 then -1074 else (biased : Int) - 1075 }

def isNegative (x : Float) : Bool := Nat.pow 2 63 ≤ x.toBits.toNat

/-- The quotient `num / den` over `2 ^ exponent`, as two whole numbers. -/
def scaled (num den : Nat) (exponent : Int) : Nat × Nat :=
  if 0 ≤ exponent then (num, den * Nat.pow 2 exponent.toNat)
  else (num * Nat.pow 2 (-exponent).toNat, den)

/-- A quotient to the nearest whole number, a tie to the even one. -/
def roundHalfEven (num den : Nat) : Nat :=
  let whole := num / den
  let twice := 2 * (num % den)
  if twice < den then whole
  else if twice = den && whole % 2 = 0 then whole
  else whole + 1

/-- The bits of the double nearest to `num / den`, for positive numbers; beyond the largest double
    they are the bits of infinity. -/
def nearestBits (num den : Nat) : Nat :=
  let size : Int := (Nat.log2 num : Int) - (Nat.log2 den : Int)
  let guess := size - 52
  let (n, d) := scaled num den guess
  let exponent := max (if n / d < Nat.pow 2 52 then guess - 1 else guess) (-1074)
  let (n, d) := scaled num den exponent
  let bits := (exponent + 1074).toNat * Nat.pow 2 52 + roundHalfEven n d
  min bits (2047 * Nat.pow 2 52)

/-- The double nearest to `num / den`, with the given sign. -/
def nearest (negative : Bool) (num den : Nat) : Float :=
  let size := if num = 0 then 0 else nearestBits num den
  Float.ofBits (UInt64.ofNat (if negative then Nat.pow 2 63 + size else size))

/-- The double nearest to `mantissa * base ^ exponent`, with the given sign. -/
def nearestScaled (negative : Bool) (mantissa base : Nat) (exponent : Int) : Float :=
  if 0 ≤ exponent then nearest negative (mantissa * Nat.pow base exponent.toNat) 1
  else nearest negative mantissa (Nat.pow base (-exponent).toNat)

end ClassScript.Number
