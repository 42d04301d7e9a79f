import ClassScript.Number.Literal
import ClassScript.Yaml.Token.Fold

/-! # Quoted scalars

Within single quotes only a quote has to be written differently: twice. Within double quotes a
backslash begins an escape. A backslash at the end of a line drops the line break.
-/

namespace ClassScript.Yaml.Quoted

/-- What the character after a backslash stands for. -/
inductive Escape
  | character (c : Char)
  /-- A code point of so many hexadecimal digits follows. -/
  | code (digits : Nat)
  deriving DecidableEq, Repr, Inhabited

def escape? (c : Char) : Option Escape :=
  match c with
  | '0' => some (.character '\x00')
  | 'a' => some (.character '\x07')
  | 'b' => some (.character '\x08')
  | 't' | '\t' => some (.character '\t')
  | 'n' => some (.character '\n')
  | 'v' => some (.character '\x0b')
  | 'f' => some (.character '\x0c')
  | 'r' => some (.character '\x0d')
  | 'e' => some (.character '\x1b')
  | ' ' | '"' | '\'' | '\\' => some (.character c)
  | 'N' => some (.character (Char.ofNat 0x85))
  | '_' => some (.character (Char.ofNat 0xa0))
  | 'L' => some (.character (Char.ofNat 0x2028))
  | 'P' => some (.character (Char.ofNat 0x2029))
  | 'x' => some (.code 2)
  | 'u' => some (.code 4)
  | 'U' => some (.code 8)
  | _ => none

def hexadecimal? (digits : List Char) : Option Nat :=
  digits.foldl (fun n? c =>
    match n?, Number.digit? 16 c with
    | some n, some d => some (16 * n + d)
    | _, _ => none) (some 0)

/-- Take a code point of `count` digits; `start` is the line where the scalar begins. -/
def codePoint (start count : Nat) : Reading Char := do
  Reading.need count
  let place ← get
  let digits := place.rest.take count
  match hexadecimal? digits with
  | none => Reading.fail start .missingHexadecimal
  | some code =>
    if digits.length < count then Reading.fail start .missingHexadecimal
    else if (0xd800 ≤ code && code ≤ 0xdfff) || 0x10ffff < code then
      Reading.fail start .invalidEscape
    else
      set (place.skipRun digits)
      return Char.ofNat code

/-- Take a word, in front of the text read so far, which is reversed. The answer tells too whether
    it ends with an escaped line break. -/
def word (quote : Char) (start : Nat) : (fuel : Nat) → List Char → Reading (List Char × Bool)
  | 0, text => return (text, false)
  | fuel + 1, text => do
    let place ← get
    let c := place.ahead 0
    let d := place.ahead 1
    if isGap c then return (text, false)
    else if c = '\'' && quote = c && d = c then
      Reading.skip
      Reading.skip
      Reading.need 2
      word quote start fuel (c :: text)
    else if c = quote then return (text, false)
    else if c = '\\' && quote = '"' then
      if isBreak d then
        Reading.need 3
        Reading.skip
        modify Place.skipBreak
        return (text, true)
      else
        match escape? d with
        | none => Reading.fail start .unknownEscape
        | some escape =>
          Reading.skip
          Reading.skip
          let meant ←
            match escape with
            | .character meant => pure meant
            | .code digits => codePoint start digits
          Reading.need 2
          word quote start fuel (meant :: text)
    else
      Reading.skip
      Reading.need 2
      word quote start fuel (c :: text)

/-- Take words and gaps up to the closing quote, in front of the text read so far, which is
    reversed. -/
def words (quote : Char) (start : Nat) : (fuel : Nat) → List Char → Reading (List Char)
  | 0, text => return text
  | fuel + 1, text => do
    Reading.need 4
    let place ← get
    if place.atDocumentMark then Reading.fail start .documentInQuotes
    else if place.ahead 0 = nothing then Reading.fail start .openQuote
    else
      let (text, broken) ← word quote start place.size text
      Reading.need 1
      let place ← get
      if place.ahead 0 = quote then
        Reading.skip
        return text
      else
        let gap ← Gap.read 0 start place.size { broken }
        words quote start fuel (gap.text.reverse ++ text)

def read : Reading String := do
  let place ← get
  Reading.skip
  let text ← words (place.ahead 0) place.mark.line (place.size + 1) []
  return String.ofList text.reverse

end ClassScript.Yaml.Quoted
