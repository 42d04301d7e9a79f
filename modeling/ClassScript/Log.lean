import ClassScript.Machine
import ClassScript.Text.Blank
import ClassScript.Text.Quoted

/-! # Log lines

A log record has a level, a message and named fields, and is written on one line as `name=value`
pairs. A value that could be misread is quoted.
-/

namespace ClassScript.Log

inductive Level
  | debug
  | info
  | warn
  | error
  deriving DecidableEq, Repr, Inhabited

namespace Level

def all : List Level := [.debug, .info, .warn, .error]

def rank : Level → Int
  | .debug => -4
  | .info => 0
  | .warn => 4
  | .error => 8

def name : Level → String
  | .debug => "debug"
  | .info => "info"
  | .warn => "warn"
  | .error => "error"

def label : Level → String
  | .debug => "DEBUG"
  | .info => "INFO"
  | .warn => "WARN"
  | .error => "ERROR"

def ofName? (name : String) : Option Level :=
  all.find? (·.name = name)

def invalid (name : String) : String := "invalid log level: " ++ name

end Level

structure Record where
  level : Level
  message : String
  fields : List (String × String)
  deriving DecidableEq, Repr, Inhabited

def isDelicate (c : Char) : Bool :=
  if c.toNat < 0x80 then c.toNat < 0x20 || c = ' ' || c = '=' || c = '"'
  else c.toNat = 0xfffd || Text.isBlank c || !Text.isPrintable c

def value (text : String) : String :=
  if text.isEmpty || text.toList.any isDelicate then Text.quote text else text

namespace Record

def line (r : Record) : String :=
  let fields := ("level", r.level.label) :: ("msg", r.message) :: r.fields
  " ".intercalate (fields.map fun (name, text) => name ++ "=" ++ value text) ++ "\n"

/-- The line of a record that matters enough, and nothing for another. -/
def lineAt (threshold : Level) (r : Record) : String :=
  if threshold.rank ≤ r.level.rank then r.line else ""

end Record

def ofEvent : Event → Record
  | .called function arguments =>
    ⟨.debug, "call", [("function", function), ("args", toString arguments)]⟩
  | .declaredClass name statics methods fields =>
    ⟨.debug, "class declared", [("class", name), ("statics", toString statics),
      ("prototype", toString methods), ("fields", toString fields)]⟩
  | .createdObject className fields =>
    ⟨.debug, "instance created", [("class", className), ("fields", toString fields)]⟩

def events (threshold : Level) (happened : List Event) : String :=
  String.join (happened.map fun event => (ofEvent event).lineAt threshold)

end ClassScript.Log
