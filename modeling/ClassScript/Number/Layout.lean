import ClassScript.Number.Shortest

/-! # Texts of doubles

A double is written with its shortest decimal, either positionally or with an exponent. A layout
says from where to where the positional form is used and how the parts are written.
-/

namespace ClassScript.Number

structure Layout where
  /-- Numbers below this one, zero apart, take an exponent. -/
  least : Float
  /-- Numbers from this one on take an exponent. -/
  limit : Float
  /-- Whether a positional number without a fraction is given one. -/
  keepFraction : Bool
  /-- The least number of digits of an exponent. -/
  exponentDigits : Nat

/-- Values show as numbers with a fraction, so that doubles can be told from integers. -/
def Layout.value : Layout := ⟨1e-4, 1e21, true, 2⟩

def Layout.data : Layout := ⟨1e-6, 1e21, false, 1⟩

def zeros (n : Nat) : String := String.ofList (List.replicate n '0')

def positional (d : Decimal) : String :=
  let digits := toString d.digits
  if 0 ≤ d.exponent then digits ++ (if d.digits = 0 then "" else zeros d.exponent.toNat)
  else
    let places := (-d.exponent).toNat
    if digits.length ≤ places then "0." ++ zeros (places - digits.length) ++ digits
    else
      let whole := digits.length - places
      String.ofList (digits.toList.take whole) ++ "." ++ String.ofList (digits.toList.drop whole)

def scientific (d : Decimal) (exponentDigits : Nat) : String :=
  let digits := (toString d.digits).toList
  let exponent := d.exponent + (digits.length : Int) - 1
  let size := toString exponent.natAbs
  String.ofList (digits.take 1) ++ (if digits.length ≤ 1 then "" else
      "." ++ String.ofList (digits.drop 1))
    ++ "e" ++ (if exponent < 0 then "-" else "+") ++ zeros (exponentDigits - size.length) ++ size

def Layout.text (layout : Layout) (x : Float) : String :=
  if x.isNaN then "NaN"
  else if x.isInf then if isNegative x then "-Inf" else "+Inf"
  else
    let size := x.abs
    let decimal := shortest x
    let body :=
      if size != 0 && (size < layout.least || layout.limit ≤ size) then
        scientific decimal layout.exponentDigits
      else
        let plain := positional decimal
        if layout.keepFraction && !plain.toList.contains '.' then plain ++ ".0" else plain
    if isNegative x then "-" ++ body else body

end ClassScript.Number
