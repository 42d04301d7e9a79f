import ClassScript.Number.Layout
import ClassScript.Text.Quoted

/-! # Data for other programs

Trees, tokens and diagnostics leave the program as JSON. A document is built as a value first and
then written with two blanks for each level. Records keep the order of their fields. Numbers that
JSON cannot write make the whole document fail.
-/

namespace ClassScript

inductive Json
  | null
  | boolean (value : Bool)
  | integer (value : Int)
  | double (value : Float)
  | string (value : String)
  | list (items : List Json)
  | record (fields : List (String × Json))
  deriving Repr, Inhabited

namespace Json

/-! ## Numbers that cannot be written -/

mutual

def unsupported? : Json → Option Float
  | .double x => if x.isNaN || x.isInf then some x else none
  | .list items => unsupportedItem? items
  | .record fields => unsupportedField? fields
  | .null | .boolean _ | .integer _ | .string _ => none

def unsupportedItem? : List Json → Option Float
  | [] => none
  | item :: rest => item.unsupported?.or (unsupportedItem? rest)

def unsupportedField? : List (String × Json) → Option Float
  | [] => none
  | (_, value) :: rest => value.unsupported?.or (unsupportedField? rest)

end

/-! ## Text -/

/-- A character as it stands in a JSON string. The marks of markup languages are escaped too. -/
def escape (c : Char) : String :=
  if c = '"' then "\\\""
  else if c = '\\' then "\\\\"
  else if c = '\x08' then "\\b"
  else if c = '\x0c' then "\\f"
  else if c = '\n' then "\\n"
  else if c = '\x0d' then "\\r"
  else if c = '\t' then "\\t"
  else if c < ' ' || c = '<' || c = '>' || c = '&' || c.toNat = 0x2028 || c.toNat = 0x2029 then
    "\\u" ++ Text.hex 4 c.toNat
  else c.toString

def quote (text : String) : String :=
  "\"" ++ String.join (text.toList.map escape) ++ "\""

def newline (level : Nat) : String := "\n" ++ String.ofList (List.replicate (2 * level) ' ')

def bracket (opening closing : String) (level : Nat) (items : List String) : String :=
  if items.isEmpty then opening ++ closing
  else opening ++ newline (level + 1) ++ ("," ++ newline (level + 1)).intercalate items ++
    newline level ++ closing

mutual

def render (level : Nat) : Json → String
  | .null => "null"
  | .boolean value => if value then "true" else "false"
  | .integer value => toString value
  | .double value => Number.Layout.data.text value
  | .string value => quote value
  | .list items => bracket "[" "]" level (renderItems (level + 1) items)
  | .record fields => bracket "\x7b" "\x7d" level (renderFields (level + 1) fields)

def renderItems (level : Nat) : List Json → List String
  | [] => []
  | item :: rest => item.render level :: renderItems level rest

def renderFields (level : Nat) : List (String × Json) → List String
  | [] => []
  | (key, value) :: rest => (quote key ++ ": " ++ value.render level) :: renderFields level rest

end

def document (value : Json) : Except Float String :=
  match value.unsupported? with
  | some x => .error x
  | none => .ok (value.render 0 ++ "\n")

end Json

end ClassScript
