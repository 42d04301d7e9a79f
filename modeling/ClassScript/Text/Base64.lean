import ClassScript.Text.Utf8

/-! # Base64

Bytes written with 64 characters, four of them for three bytes. An equals sign fills up the last
group. Line breaks do not count.
-/

namespace ClassScript.Text.Base64

/-- The number that a character stands for. -/
def digit? (c : Char) : Option Nat :=
  if 'A' ≤ c && c ≤ 'Z' then some (c.toNat - 'A'.toNat)
  else if 'a' ≤ c && c ≤ 'z' then some (c.toNat - 'a'.toNat + 26)
  else if '0' ≤ c && c ≤ '9' then some (c.toNat - '0'.toNat + 52)
  else if c = '+' then some 62
  else if c = '/' then some 63
  else none

def groups? : List Char → Option (List UInt8)
  | [] => some []
  | [a, b, '=', '='] => do
    let n := 64 * (← digit? a) + (← digit? b)
    return [(n / 16).toUInt8]
  | [a, b, c, '='] => do
    let n := 4096 * (← digit? a) + 64 * (← digit? b) + (← digit? c)
    return [(n / 1024).toUInt8, (n / 4).toUInt8]
  | a :: b :: c :: d :: rest => do
    let n := 262144 * (← digit? a) + 4096 * (← digit? b) + 64 * (← digit? c) + (← digit? d)
    let more ← groups? rest
    return (n / 65536).toUInt8 :: (n / 256).toUInt8 :: n.toUInt8 :: more
  | _ => none

/-- The text that is written in base 64. A byte that is no part of a character shows as a
    replacement character. -/
def decode? (text : String) : Option String :=
  (groups? (text.toList.filter fun c => c ≠ '\n' && c ≠ '\x0d')).map fun bytes =>
    String.ofList (Utf8.decodeEach bytes)

end ClassScript.Text.Base64
