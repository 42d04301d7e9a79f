import ClassScript.Number.Binary

/-! # Reading number literals

An integer literal is an optional sign and decimal digits, and has to fit 64 bits. A double literal
is a sign, digits with at most one point, and an exponent; it is read as the nearest double. A
double may also be written in base sixteen with a binary exponent, with underscores between digits,
or as a word for an infinity or for no number. A reading that fails still yields a number: the
nearest limit when the literal is out of range, and zero when it is no number.
-/

namespace ClassScript.Number

def digit? (base : Nat) (c : Char) : Option Nat :=
  let value :=
    if '0' ≤ c && c ≤ '9' then c.toNat - 48
    else if 'a' ≤ c && c ≤ 'f' then c.toNat - 87
    else if 'A' ≤ c && c ≤ 'F' then c.toNat - 55
    else 16
  if value < base then some value else none

def isDigit (c : Char) : Bool := '0' ≤ c && c ≤ '9'

def decimalValue (digits : List Char) : Nat :=
  digits.foldl (fun n c => 10 * n + (c.toNat - 48)) 0

/-- A sign in front of a number: whether it is a minus, and what follows. -/
def sign : List Char → Bool × List Char
  | '-' :: rest => (true, rest)
  | '+' :: rest => (false, rest)
  | text => (false, text)

/-! ## Integers -/

/-- The integer that a literal writes, and whether the literal is one that 64 bits hold. Digits
    beyond 64 bits count as out of range even before some other character. -/
def readInteger (text : String) : Int64 × Bool :=
  let (negative, body) := sign text.toList
  let size := decimalValue (body.takeWhile isDigit)
  let limit := Nat.pow 2 63
  if size < Nat.pow 2 64 && (body.isEmpty || !body.all isDigit) then (0, false)
  else if negative then
    if size ≤ limit then (Int64.ofInt (-(size : Int)), true) else (Int64.ofInt (-limit), false)
  else
    if size < limit then (Int64.ofInt size, true) else (Int64.ofInt (limit - 1), false)

/-! ## Doubles -/

/-- Digits read so far: their value, how many follow the point, and what was seen. -/
structure Digits where
  value : Nat := 0
  places : Nat := 0
  anyDigit : Bool := false
  point : Bool := false
  deriving DecidableEq, Repr

/-- Read digits with at most one point among them; underscores are passed over. -/
def readDigits (base : Nat) : Digits → List Char → Digits × List Char
  | seen, [] => (seen, [])
  | seen, c :: rest =>
    if c = '_' then readDigits base seen rest
    else if c = '.' && !seen.point then readDigits base { seen with point := true } rest
    else match digit? base c with
      | some d =>
        readDigits base
          { seen with
            value := base * seen.value + d
            places := seen.places + if seen.point then 1 else 0
            anyDigit := true } rest
      | none => (seen, c :: rest)

/-- The digits of an exponent, underscores passed over. An exponent stops growing once it has
    passed every double. -/
def readExponent : Nat → List Char → Nat × List Char
  | n, [] => (n, [])
  | n, c :: rest =>
    if c = '_' then readExponent n rest
    else if isDigit c then
      readExponent (if n < 10000 then 10 * n + (c.toNat - 48) else n) rest
    else (n, c :: rest)

inductive Neighbour
  | nothing
  | digit
  | underscore
  | other
  deriving DecidableEq, Repr

def underscoresBetween (base : Nat) : Neighbour → List Char → Bool
  | left, [] => left ≠ .underscore
  | left, c :: rest =>
    if (digit? base c).isSome then underscoresBetween base .digit rest
    else if c = '_' then left = .digit && underscoresBetween base .underscore rest
    else left ≠ .underscore && underscoresBetween base .other rest

/-- Whether a text is `word` in capital or small letters. -/
def spells (text : List Char) (word : String) : Bool := text.map Char.toLower = word.toList

def readMagnitude? (negative : Bool) (base : Nat) (text : List Char) : Option Float :=
  let (digits, rest) := readDigits base {} text
  let mark := if base = 16 then 'p' else 'e'
  let exponent? : Option Int :=
    match rest with
    | [] => if base = 16 then none else some 0
    | c :: rest =>
      if c.toLower = mark then
        let (minus, body) := sign rest
        match body with
        | d :: _ =>
          let (n, rest) := readExponent 0 body
          if isDigit d && rest.isEmpty then some (if minus then -(n : Int) else n) else none
        | [] => none
      else none
  match exponent? with
  | some exponent =>
    if !digits.anyDigit then none
    else if base = 16 then
      some (nearestScaled negative digits.value 2 (exponent - 4 * (digits.places : Int)))
    else some (nearestScaled negative digits.value 10 (exponent - (digits.places : Int)))
  | none => none

/-- The base of a literal without its sign, what stands behind the base mark, and what stands left of
    that. -/
def base : List Char → Nat × List Char × Neighbour
  | '0' :: x :: d :: rest =>
    if x.toLower = 'x' then (16, d :: rest, .digit) else (10, '0' :: x :: d :: rest, .nothing)
  | text => (10, text, .nothing)

/-- The double that a literal writes, and whether it is a number within range. -/
def readDouble (text : String) : Float × Bool :=
  let chars := text.toList
  let (negative, body) := sign chars
  if spells body "inf" || spells body "infinity" then
    (Float.ofBits (if negative then 0xFFF0000000000000 else 0x7FF0000000000000), true)
  else if spells chars "nan" then (Float.ofBits 0x7FF8000000000000, true)
  else
    let (radix, digits, left) := base body
    match readMagnitude? negative radix digits with
    | some x =>
      if body.contains '_' && !underscoresBetween radix left digits then (0, false)
      else (x, !x.isInf)
    | none => (0, false)

end ClassScript.Number
