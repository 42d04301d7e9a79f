import ClassScript.Number.Binary

/-! # Powers

Integer powers by repeated squaring, wrapping at 64 bits, and powers of doubles. The latter split
the exponent into a whole part, done by squaring a mantissa in `[1/2, 1)` beside its binary
exponent, and a fraction, done through the exponential and the logarithm. The fixed special cases
come first: a zero exponent and a base of one give one whatever the other number is.
-/

namespace ClassScript.Number

/-! ## Integers -/

/-- A power in progress: the number `result * base ^ exponent`. -/
structure Squaring where
  result : Int64
  base : Int64
  exponent : Int64

namespace Squaring

def round (s : Squaring) : Squaring where
  result := if s.exponent &&& 1 = 1 then s.result * s.base else s.result
  base := s.base * s.base
  exponent := s.exponent >>> 1

theorem toInt_exponent_round (s : Squaring) : s.round.exponent.toInt = s.exponent.toInt / 2 := by
  show (s.exponent.toBitVec.sshiftRight 1).toInt = _
  rw [BitVec.toInt_sshiftRight, Int64.toInt_toBitVec, Int.shiftRight_eq_div_pow]
  rfl

def run (s : Squaring) : Int64 :=
  if 0 < s.exponent then s.round.run else s.result
  termination_by s.exponent.toInt.toNat
  decreasing_by
    have positive := Int64.lt_iff_toInt_lt.1 ‹0 < s.exponent›
    rw [Int64.toInt_zero] at positive
    rw [toInt_exponent_round]
    omega

end Squaring

def powInteger (base exponent : Int64) : Int64 := Squaring.run ⟨1, base, exponent⟩

/-! ## Parts of a double -/

/-- The double `x * 2 ^ exponent`. -/
def scale (x : Float) (exponent : Int) : Float :=
  if x == 0 || x.isNaN || x.isInf then x
  else
    let b := Binary.ofFloat x
    nearestScaled b.negative b.mantissa 2 (b.exponent + exponent)

/-- A finite double other than zero as a fraction of absolute value in `[1/2, 1)` and a power of
    two. -/
def fractionAndExponent (x : Float) : Float × Int :=
  if x == 0 || x.isNaN || x.isInf then (x, 0)
  else
    let b := Binary.ofFloat x
    let size : Int := (Nat.log2 b.mantissa : Int) + 1
    (nearestScaled b.negative b.mantissa 2 (-size), b.exponent + size)

def wholePart (x : Float) : Nat :=
  let b := Binary.ofFloat x
  if 0 ≤ b.exponent then b.mantissa * Nat.pow 2 b.exponent.toNat
  else b.mantissa / Nat.pow 2 (-b.exponent).toNat

def isOdd (x : Float) : Bool :=
  let whole := wholePart x
  nearest false whole 1 == x.abs && whole % 2 = 1

def ofWhole (n : Nat) : Float := nearest false n 1

def infinity : Float := Float.ofBits 0x7FF0000000000000

def notANumber : Float := Float.ofBits 0x7FF8000000000000

/-! ## Exponential and logarithm -/

def ln2High : Float := 6.93147180369123816490e-01

/-- What `ln2High` lacks of the logarithm of two. -/
def ln2Low : Float := 1.90821492927058770002e-10

/-- The natural logarithm of a positive finite double. The number is `f * 2 ^ k` with `f` near one,
    and the logarithm of `f` is a polynomial in `(f - 1) / (f + 1)`. -/
def log (x : Float) : Float :=
  let (fraction, exponent) := fractionAndExponent x
  let small := fraction < 7.07106781186547524401e-01
  let f := (if small then fraction * 2 else fraction) - 1
  let power := if small then exponent - 1 else exponent
  let k := nearest (power < 0) power.natAbs 1
  let s := f / (2 + f)
  let s2 := s * s
  let s4 := s2 * s2
  let t1 := s2 * (6.666666666666735130e-01 + s4 * (2.857142874366239149e-01 +
    s4 * (1.818357216161805012e-01 + s4 * 1.479819860511658591e-01)))
  let t2 := s4 * (3.999999999940941908e-01 + s4 * (2.222219843214978396e-01 +
    s4 * 1.531383769920937332e-01))
  let r := t1 + t2
  let halfSquare := 0.5 * f * f
  k * ln2High - ((halfSquare - (s * (halfSquare + r) + k * ln2Low)) - f)

/-- `a * b + c` for finite doubles, rounded once. A zero sum counts as positive. -/
def mulAdd (a b c : Float) : Float :=
  let x := Binary.ofFloat a
  let y := Binary.ofFloat b
  let z := Binary.ofFloat c
  let unit := min (x.exponent + y.exponent) z.exponent
  let signed (negative : Bool) (size : Nat) : Int := if negative then -(size : Int) else size
  let product := x.mantissa * y.mantissa * Nat.pow 2 (x.exponent + y.exponent - unit).toNat
  let sum := signed (x.negative != y.negative) product
    + signed z.negative (z.mantissa * Nat.pow 2 (z.exponent - unit).toNat)
  nearestScaled (sum < 0) sum.natAbs 2 unit

/-- A finite double to the nearest whole number, a tie to the even one. -/
def nearestWhole (x : Float) : Int :=
  let b := Binary.ofFloat x
  let (num, den) := scaled b.mantissa 1 (-b.exponent)
  let size : Int := roundHalfEven num den
  if b.negative then -size else size

def ofInt (n : Int) : Float := nearest (n < 0) n.natAbs 1

def exponentialSeries : List Float :=
  [2.4801587301587301587e-5, 1.9841269841269841270e-4, 1.3888888888888888889e-3,
    8.3333333333333333333e-3, 4.1666666666666666667e-2, 1.6666666666666666667e-1, 0.5, 1]

/-- The exponential of a double of moderate size. The argument is a multiple of the logarithm of
    two and a rest; a sixteenth of the rest goes into the series, which gives the exponential less
    one, and squaring four times undoes the division. -/
def exp (x : Float) : Float :=
  let k := nearestWhole (1.4426950408889634073599246810018920 * x)
  let upper := mulAdd (-ofInt k) 0.69314718055966295651160180568695068359375 x
  let rest := mulAdd (-ofInt k) 0.28235290563031577122588448175013436025525412068e-12 upper
  let r := rest * 0.0625
  let series := exponentialSeries.foldl (fun sum factor => mulAdd sum r factor) 0
  let e1 := r * series
  let e2 := e1 * (2 + e1)
  let e4 := e2 * (2 + e2)
  let e8 := e4 * (2 + e4)
  scale (mulAdd e8 (2 + e8) 1) k

/-! ## Doubles -/

/-- A product in progress: the number `factor * 2 ^ exponent`. -/
structure Scaled where
  factor : Float
  exponent : Int

/-- `product * base ^ exponent` by squaring, the base being a fraction and a power of two. Once the
    power of two has left the range of doubles, the outcome no longer depends on the rest. -/
def powWhole (product base : Scaled) (exponent : Nat) : Scaled :=
  if h : exponent = 0 then product
  else if base.exponent < -4096 || 4096 < base.exponent then
    ⟨product.factor, product.exponent + base.exponent⟩
  else
    let product := if exponent % 2 = 1 then
        ⟨product.factor * base.factor, product.exponent + base.exponent⟩ else product
    let square := base.factor * base.factor
    let base := if square < 0.5 then ⟨square + square, 2 * base.exponent - 1⟩
      else ⟨square, 2 * base.exponent⟩
    powWhole product base (exponent / 2)
  termination_by exponent
  decreasing_by omega

def powFinite (x y : Float) : Float :=
  let whole := wholePart y
  let rest := y.abs - ofWhole whole
  if rest != 0 && x < 0 then notANumber
  else if Nat.pow 2 63 ≤ whole then
    if x == -1 then 1
    else if (x.abs < 1) == (y > 0) then 0
    else infinity
  else
    let up := rest > 0.5
    let start := if rest != 0 then exp ((if up then rest - 1 else rest) * log x) else 1
    let (fraction, exponent) := fractionAndExponent x
    let result := powWhole ⟨start, 0⟩ ⟨fraction, exponent⟩ (if up then whole + 1 else whole)
    if y < 0 then scale (1 / result.factor) (-result.exponent)
    else scale result.factor result.exponent

def powZero (x y : Float) : Float :=
  if y < 0 then if isNegative x && isOdd y then -infinity else infinity
  else if isNegative x && isOdd y then x else 0

def pow (x y : Float) : Float :=
  if y == 0 || x == 1 then 1
  else if y == 1 then x
  else if x.isNaN || y.isNaN then notANumber
  else if x == 0 then powZero x y
  else if y.isInf then
    if x == -1 then 1
    else if (x.abs < 1) == (y > 0) then 0
    else infinity
  else if x.isInf then
    if x < 0 then powZero (-0.0) (-y)
    else if y < 0 then 0 else infinity
  else if y == 0.5 then x.sqrt
  else if y == -0.5 then 1 / x.sqrt
  else powFinite x y

end ClassScript.Number
