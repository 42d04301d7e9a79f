import ClassScript.Encoding
import ClassScript.Log
import ClassScript.Settings.Flags

/-! # Settings

Settings come from four layers: defaults, a settings file, environment variables and flags. A later
layer wins over an earlier one. Only the outcome has to be valid. How settings files are written,
and which encodings there are, is no matter of the layers: it comes with the surroundings.
-/

namespace ClassScript

structure Settings where
  logLevel : String
  shortCircuit : Bool
  encoding : String
  /-- Where a session keeps its history; empty when it keeps none. -/
  historyFile : String
  deriving DecidableEq, Repr, Inhabited

namespace Settings

inductive Field
  | logLevel
  | shortCircuit
  | encoding
  | historyFile
  deriving DecidableEq, Repr, Inhabited

inductive FormatError
  /-- There is no document in it. -/
  | noDocument
  | refused (reason : String)
  deriving DecidableEq, Repr

/-- A way to write settings files: how one is applied to settings. -/
abbrev Format := List UInt8 → Settings → Except FormatError Settings

end Settings

inductive Entry
  | file (bytes : List UInt8)
  /-- It can be opened, but not read. -/
  | directory
  | unreadable (reason : String)
  deriving DecidableEq, Repr, Inhabited

def Entry.missing : Entry := .unreadable "no such file or directory"

structure Surroundings where
  /-- Whether the file system knows a name. It may do so although the file cannot be opened. -/
  knows : String → Bool
  look : String → Entry
  /-- The value of an environment variable; empty when it is not set. -/
  environment : String → String
  format : Settings.Format
  registry : Registry

namespace Settings

inductive Problem
  | unreadableFile (path reason : String)
  | directory (path : String)
  | malformedFile (path reason : String)
  /-- The variable for the short circuit is no truth value. -/
  | environmentTruth (value : String)
  | logLevel (name : String)
  | encoding (error : Encoding.NameError)
  deriving DecidableEq, Repr

def Problem.message : Problem → String
  | .unreadableFile path reason => s!"config: open {path}: open {path}: {reason}"
  | .directory path => s!"config: parse {path}: yaml: input error: read {path}: is a directory"
  | .malformedFile path reason => s!"config: parse {path}: {reason}"
  | .environmentTruth value =>
    s!"config: NSC_SHORT_CIRCUIT: strconv.ParseBool: parsing {Text.quote value}: invalid syntax"
  | .logLevel name => "config: " ++ Log.Level.invalid name
  | .encoding error => "config: " ++ error.message

/-! ## Defaults -/

def cleanParts (rooted : Bool) (parts : List String) : List String :=
  parts.foldl (fun kept part =>
    if part = "" || part = "." then kept
    else if part = ".." then
      match kept with
      | [] => if rooted then [] else [part]
      | last :: rest => if last = ".." then part :: kept else rest
    else part :: kept) []

def cleanPath (path : String) : String :=
  let rooted := path.toList.head? = some '/'
  let parts := (cleanParts rooted (path.splitOn "/")).reverse
  let joined := "/".intercalate parts
  if rooted then "/" ++ joined else if parts.isEmpty then "." else joined

def defaults (home : String) : Settings where
  logLevel := "warn"
  shortCircuit := false
  encoding := Encoding.defaultName
  historyFile := if home.isEmpty then "" else cleanPath (home ++ "/.nsc_history")

/-! ## Layers -/

def defaultFile : String := "nsc.yml"

def file? (flags : Flags) (knows : String → Bool) : Option String :=
  if !flags.config.isEmpty then some flags.config
  else if knows defaultFile then some defaultFile
  else none

/-- Apply the settings file at a path. One without a document changes nothing. -/
def load (format : Format) (settings : Settings) (path : String) (entry : Entry) :
    Except Problem Settings :=
  match entry with
  | .unreadable reason => .error (.unreadableFile path reason)
  | .directory => .error (.directory path)
  | .file bytes =>
    match format bytes settings with
    | .ok settings => .ok settings
    | .error .noDocument => .ok settings
    | .error (.refused reason) => .error (.malformedFile path reason)

def applyEnvironment (settings : Settings) (environment : String → String) :
    Except Problem Settings :=
  let text := fun (old name : String) =>
    if (environment name).isEmpty then old else environment name
  let settings := { settings with
    logLevel := text settings.logLevel "NSC_LOG_LEVEL"
    encoding := text settings.encoding "NSC_ENCODING" }
  let word := environment "NSC_SHORT_CIRCUIT"
  if word.isEmpty then .ok settings
  else match Flags.truth? word with
    | some shortCircuit => .ok { settings with shortCircuit }
    | none => .error (.environmentTruth word)

def applyFlags (settings : Settings) (flags : Flags) : Settings :=
  { settings with
    logLevel := flags.logLevel.getD settings.logLevel
    shortCircuit := flags.shortCircuit.getD settings.shortCircuit
    encoding := flags.encoding.getD settings.encoding }

def validate (registry : Registry) (settings : Settings) : Except Problem Settings :=
  if (Log.Level.ofName? settings.logLevel).isNone then .error (.logLevel settings.logLevel)
  else match registry.lookup settings.encoding with
    | .error error => .error (.encoding error)
    | .ok _ => .ok settings

def resolve (flags : Flags) (surroundings : Surroundings) : Except Problem Settings := do
  let base := defaults (surroundings.environment "HOME")
  let fromFile ←
    match file? flags surroundings.knows with
    | none => pure base
    | some path => load surroundings.format base path (surroundings.look path)
  let fromEnvironment ← fromFile.applyEnvironment surroundings.environment
  validate surroundings.registry (fromEnvironment.applyFlags flags)

end Settings

end ClassScript
