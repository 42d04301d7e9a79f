import ClassScript.Number.Literal
import ClassScript.Text.Base64
import ClassScript.Yaml.Problem

/-! # Scalars of YAML

A scalar that is written plainly says by its looks whether it is null, a truth value, a number, a
date or a string. A quoted one is a string. A tag before a scalar overrules that, but a type that
has a form of its own must fit the text.
-/

namespace ClassScript.Yaml

inductive Tag
  | null
  | boolean (value : Bool)
  | integer
  | float
  | timestamp
  | string
  /-- The key whose value is merged into the mapping around it. -/
  | merge
  deriving DecidableEq, Repr, Inhabited

def Tag.name : Tag → String
  | .null => "!!null"
  | .boolean _ => "!!bool"
  | .integer => "!!int"
  | .float => "!!float"
  | .timestamp => "!!timestamp"
  | .string => "!!str"
  | .merge => "!!merge"

/-! ## Numbers -/

def baseAndDigits : List Char → Nat × List Char
  | '0' :: mark :: d :: rest =>
    if mark.toLower = 'x' then (16, d :: rest)
    else if mark.toLower = 'o' then (8, d :: rest)
    else if mark.toLower = 'b' then (2, d :: rest)
    else (8, mark :: d :: rest)
  | '0' :: rest => (8, rest)
  | digits => (10, digits)

def digitsFrom (base start : Nat) (digits : List Char) : Option Nat :=
  digits.foldl (fun n? c =>
    match n?, Number.digit? base c with
    | some n, some d => some (base * n + d)
    | _, _ => none) (some start)

/-- The value of digits in a base, of which there is at least one. -/
def digits? (base : Nat) (digits : List Char) : Option Nat :=
  if digits.isEmpty then none else digitsFrom base 0 digits

def natural? (text : List Char) : Option Nat :=
  let (base, digits) := baseAndDigits text
  if text.isEmpty then none else digitsFrom base 0 digits

def integer? (natural? : List Char → Option Nat) (text : List Char) : Option Int :=
  match text with
  | '-' :: rest => ((natural? rest).filter (· ≤ Nat.pow 2 63)).map fun n => -(n : Int)
  | '+' :: rest => ((natural? rest).filter (· < Nat.pow 2 63)).map (↑·)
  | text => ((natural? text).filter (· < Nat.pow 2 64)).map (↑·)

/-- The value of an integer of any form. After the mark for base two or eight a sign may stand. -/
def anyInteger? (text : List Char) : Option Int :=
  (integer? natural? text).or <|
    match text with
    | '0' :: 'b' :: rest => integer? (digits? 2) rest
    | '0' :: 'o' :: rest => integer? (digits? 8) rest
    | _ => none

def isExponent : List Char → Bool
  | [] => true
  | c :: rest =>
    let (_, digits) := Number.sign rest
    c.toLower = 'e' && !digits.isEmpty && digits.all Number.isDigit

def isDecimal (text : List Char) : Bool :=
  let (_, body) := Number.sign text
  let whole := body.takeWhile Number.isDigit
  match body.dropWhile Number.isDigit with
  | '.' :: rest =>
    (!whole.isEmpty || rest.head?.any Number.isDigit)
      && isExponent (rest.dropWhile Number.isDigit)
  | rest => !whole.isEmpty && isExponent rest

def isFloat (text : List Char) : Bool :=
  isDecimal text && (Number.readDouble (String.ofList text)).2

/-! ## Dates -/

def shortNumber? : List Char → Option (Nat × List Char)
  | a :: b :: rest =>
    if Number.isDigit a then
      if Number.isDigit b then some (Number.decimalValue [a, b], rest)
      else some (Number.decimalValue [a], b :: rest)
    else none
  | [a] => if Number.isDigit a then some (Number.decimalValue [a], []) else none
  | [] => none

def after? (mark : Char) : List Char → Option (List Char)
  | c :: rest => if c = mark then some rest else none
  | [] => none

def daysIn (year month : Nat) : Nat :=
  if month = 2 then
    if year % 4 = 0 && (year % 100 ≠ 0 || year % 400 = 0) then 29 else 28
  else if [4, 6, 9, 11].contains month then 30
  else 31

def date? (text : List Char) : Option (List Char) := do
  let year := text.takeWhile Number.isDigit
  guard (year.length = 4)
  let (month, rest) ← shortNumber? (← after? '-' (text.drop 4))
  let (day, rest) ← shortNumber? (← after? '-' rest)
  guard (1 ≤ month && month ≤ 12 && 1 ≤ day && day ≤ daysIn (Number.decimalValue year) month)
  return rest

def time? (text : List Char) : Option (List Char) := do
  let (hour, rest) ← shortNumber? text
  let (minute, rest) ← shortNumber? (← after? ':' rest)
  let (second, rest) ← shortNumber? (← after? ':' rest)
  guard (hour < 24 && minute < 60 && second < 60)
  match rest with
  | mark :: d :: more =>
    if (mark = '.' || mark = ',') && Number.isDigit d then return more.dropWhile Number.isDigit
    else return rest
  | _ => return rest

def isZone : List Char → Bool
  | ['Z'] => true
  | [s, a, b, ':', c, d] =>
    (s = '+' || s = '-') && [a, b, c, d].all Number.isDigit
      && Number.decimalValue [a, b] ≤ 24 && Number.decimalValue [c, d] ≤ 60
  | _ => false

def isTimestamp (text : List Char) : Bool :=
  match date? text with
  | some [] => true
  | some (c :: rest) =>
    if c = 'T' || c = 't' then (time? rest).any isZone
    else c = ' ' && (time? (rest.dropWhile (· = ' '))).any (·.isEmpty)
  | none => false

/-! ## All scalars -/

def numberTag (dates : Bool) (text : List Char) : Tag :=
  let plain := text.filter (· ≠ '_')
  if dates && isTimestamp text then .timestamp
  else if (anyInteger? plain).isSome then .integer
  else if isFloat plain then .float
  else .string

/-- What a text looks like; `dates` tells whether it may be a date. -/
def tagOf (dates : Bool) (text : String) : Tag :=
  if ["", "~", "null", "Null", "NULL"].contains text then .null
  else if ["true", "True", "TRUE"].contains text then .boolean true
  else if ["false", "False", "FALSE"].contains text then .boolean false
  else if [".nan", ".NaN", ".NAN", ".inf", ".Inf", ".INF", "+.inf", "+.Inf", "+.INF", "-.inf",
      "-.Inf", "-.INF"].contains text then .float
  else
    match text.toList with
    | '.' :: rest => if (Number.readDouble (String.ofList ('.' :: rest))).2 then .float else .string
    | c :: rest =>
      if Number.isDigit c || c = '+' || c = '-' then numberTag dates (c :: rest) else .string
    | [] => .null

structure Scalar where
  /-- The line it begins on, counted from one. -/
  line : Nat
  text : String
  /-- Whether it was written without quotes. -/
  plain : Bool
  /-- The tag that was written before it. -/
  written : Option String := none
  deriving DecidableEq, Repr, Inhabited

/-- What a scalar stands for, as far as a program cares. -/
inductive Value
  | null
  | boolean (value : Bool)
  | string (text : String)
  /-- A number or a date. -/
  | other
  deriving DecidableEq, Repr, Inhabited

namespace Scalar

def tag (s : Scalar) : String :=
  match s.written with
  | some tag => tag
  | none =>
    if !s.plain then "!!str"
    else if s.text = "<<" then Tag.merge.name
    else (tagOf true s.text).name

def isChecked (tag : String) : Bool :=
  ["!!null", "!!bool", "!!int", "!!float", "!!timestamp"].contains tag

/-- What a text stands for by its looks. -/
def seen (tag : Tag) (text : String) : Value :=
  match tag with
  | .null => .null
  | .boolean value => .boolean value
  | .string | .merge => .string text
  | .integer | .float | .timestamp => .other

def isWhole (text : String) : Bool :=
  (anyInteger? (text.toList.filter (· ≠ '_'))).any (· < Int.ofNat (Nat.pow 2 63))

/-- What a scalar stands for. A tag that has no form of its own leaves the text as it is, and binary
    data are decoded. -/
def value (s : Scalar) : Except Cause Value :=
  if s.tag = "!!binary" then
    match Text.Base64.decode? s.text with
    | some text => .ok (.string text)
    | none => .error .invalidBinary
  else if isChecked s.tag then
    let found := tagOf (s.tag = "!!timestamp") s.text
    if found.name = s.tag then .ok (seen found s.text)
    else if s.tag = "!!float" && found = .integer && isWhole s.text then .ok .other
    else .error (.undecodable found.name s.text s.tag)
  else .ok (.string s.text)

def isMerge (s : Scalar) : Bool := s.text = "<<" && s.tag = Tag.merge.name

end Scalar

end ClassScript.Yaml
