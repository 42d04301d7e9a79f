import ClassScript.Text.Quoted

/-! # Command-line flags

A flag is written with one dash or two. A switch may be given a truth value after an equals sign;
any other flag takes its value from there or from the next argument. Whatever is no flag is a
positional argument, and so is the argument after a lone double dash. Flags and positional
arguments may be mixed, and the last flag of a name wins.
-/

namespace ClassScript

structure Flags where
  /-- The settings file; empty when none is named. -/
  config : String := ""
  logLevel : Option String := none
  shortCircuit : Option Bool := none
  encoding : Option String := none
  json : Bool := false
  positional : List String := []
  deriving DecidableEq, Repr, Inhabited

inductive FlagError
  /-- An argument that is all dashes or has no name. -/
  | malformed (argument : String)
  | undefined (name : String)
  | missingValue (name : String)
  | notBoolean (name value : String)
  /-- The user asks what flags there are. -/
  | help
  deriving DecidableEq, Repr

def FlagError.message : FlagError → String
  | .malformed argument => "bad flag syntax: " ++ argument
  | .undefined name => "flag provided but not defined: -" ++ name
  | .missingValue name => "flag needs an argument: -" ++ name
  | .notBoolean name value =>
    s!"invalid boolean value {Text.quote value} for -{name}: parse error"
  | .help => "flag: help requested"

namespace Flags

/-- The truth value that a word stands for. -/
def truth? (word : String) : Option Bool :=
  if ["1", "t", "T", "TRUE", "true", "True"].contains word then some true
  else if ["0", "f", "F", "FALSE", "false", "False"].contains word then some false
  else none

inductive Argument
  | positional
  /-- A double dash: the next argument is positional. -/
  | separator
  | malformed
  | flag (name : String) (value : Option String)
  deriving DecidableEq, Repr

/-- A flag without its dashes, split at the first equals sign. The name has one character at
    least. -/
def named (first : Char) (rest : List Char) : Argument :=
  let name := String.ofList (first :: rest.takeWhile (· ≠ '='))
  match rest.dropWhile (· ≠ '=') with
  | _ :: value => .flag name (some (String.ofList value))
  | [] => .flag name none

def classify (argument : String) : Argument :=
  match argument.toList with
  | ['-', '-'] => .separator
  | '-' :: '-' :: c :: rest => if c = '-' || c = '=' then .malformed else named c rest
  | '-' :: c :: rest => if c = '=' then .malformed else named c rest
  | _ => .positional

/-- What a name stands for. -/
inductive Known
  | switch (set : Bool → Flags → Flags)
  | valued (set : String → Flags → Flags)

def lookup? (name : String) : Option Known :=
  match name with
  | "config" => some (.valued fun value flags => { flags with config := value })
  | "encoding" => some (.valued fun value flags => { flags with encoding := some value })
  | "json" => some (.switch fun value flags => { flags with json := value })
  | "log-level" => some (.valued fun value flags => { flags with logLevel := some value })
  | "short-circuit" => some (.switch fun value flags => { flags with shortCircuit := some value })
  | _ => none

def addPositional (flags : Flags) (argument : String) : Flags :=
  { flags with positional := flags.positional ++ [argument] }

def parseFrom (flags : Flags) : List String → Except FlagError Flags
  | [] => .ok flags
  | argument :: rest =>
    match classify argument with
    | .positional => parseFrom (flags.addPositional argument) rest
    | .separator =>
      match rest with
      | [] => .ok flags
      | next :: rest => parseFrom (flags.addPositional next) rest
    | .malformed => .error (.malformed argument)
    | .flag name value? =>
      match lookup? name with
      | none => .error (if name = "help" || name = "h" then .help else .undefined name)
      | some (.switch set) =>
        match truth? (value?.getD "true") with
        | some value => parseFrom (set value flags) rest
        | none => .error (.notBoolean name (value?.getD ""))
      | some (.valued set) =>
        match value?, rest with
        | some value, rest => parseFrom (set value flags) rest
        | none, value :: rest => parseFrom (set value flags) rest
        | none, [] => .error (.missingValue name)

def parse (arguments : List String) : Except FlagError Flags := parseFrom {} arguments

def usage (command : String) : String :=
  (if command.isEmpty then "Usage:\n" else "Usage of " ++ command ++ ":\n") ++
  "  -config string\n    \tpath to a YAML config file\n" ++
  "  -encoding string\n    \tsource file encoding (IANA name)\n" ++
  "  -json\n    \tprint JSON output\n" ++
  "  -log-level string\n    \tlog level: debug, info, warn or error\n" ++
  "  -short-circuit\n    \tskip the right operand of && and || when the left decides\n"

def complaint (command : String) (error : FlagError) : String :=
  match error with
  | .help => usage command
  | error => error.message ++ "\n" ++ usage command

end Flags

end ClassScript
