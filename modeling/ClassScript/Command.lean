import ClassScript.Interpreter
import ClassScript.Log
import ClassScript.Parser
import ClassScript.Report
import ClassScript.Settings
import ClassScript.Token.Lexer

/-! # Commands

The program has four commands: `tokens`, `parse` and `run` read a source file, and `repl` opens a
session. What a command writes and how it ends is a function of its arguments and its
surroundings.
-/

namespace ClassScript

inductive Command
  | tokens
  | parse
  | run
  | repl
  deriving DecidableEq, Repr, Inhabited

namespace Command

structure Output where
  exit : Nat := 0
  stdout : String := ""
  stderr : String := ""
  deriving DecidableEq, Repr, Inhabited

def name : Command → String
  | .tokens => "tokens"
  | .parse => "parse"
  | .run => "run"
  | .repl => "repl"

def ofName? (name : String) : Option Command :=
  [tokens, parse, run, repl].find? (·.name = name)

def usage : String :=
  "Usage:\n" ++
  "  nsc tokens <file> [--json]   Tokenize and print tokens\n" ++
  "  nsc parse  <file>            Parse and print AST (JSON)\n" ++
  "  nsc run    <file>            Run a source file\n" ++
  "  nsc repl                     Start interactive REPL\n" ++
  "\n" ++
  "Flags: --config <file> --log-level <level> --short-circuit --encoding <name>\n"

def errorLine (message : String) : String := "error: " ++ message ++ "\n"

/-- A document on standard output. The exit code tells whether there were diagnostics. -/
def documentOutput (document : Json) (diagnostics : List Diagnostic) : Output :=
  match document.document with
  | .ok stdout => { exit := if diagnostics.isEmpty then 0 else 1, stdout }
  | .error x => { exit := 1, stderr := errorLine (Report.unsupported x) }

def listTokens (json : Bool) (source : List UInt8) : Output :=
  let (found, diagnostics) := tokenize source
  if json then documentOutput (Report.tokenDocument found diagnostics) diagnostics
  else
    { exit := if diagnostics.isEmpty then 0 else 1
      stdout := Report.tokens found
      stderr := Report.diagnostics diagnostics }

def showTree (source : List UInt8) : Output :=
  let (tree, diagnostics) := parseSource source
  documentOutput (Report.treeDocument tree diagnostics) diagnostics

def runSource (level : Log.Level) (shortCircuit : Bool) (path : String) (source : List UInt8) :
    Output :=
  let (tree, diagnostics) := parseSource source
  if Diagnostic.anyError diagnostics then
    let record : Log.Record := ⟨.error, "parse failed",
      [("file", path), ("diagnostics", toString diagnostics.length)]⟩
    { exit := 1, stderr := Report.diagnostics diagnostics ++ record.lineAt level }
  else
    let (outcome, machine) := Interpreter.evaluate { shortCircuit } tree (Interpreter.start [])
    let (stdout, events, _) := Interpreter.take machine
    let log := Log.events level events
    match outcome with
    | .value _ => { stdout, stderr := log }
    | .stopped stop =>
      let record : Log.Record := ⟨.error, "run failed", [("file", path), ("err", stop.text)]⟩
      { exit := 1, stdout, stderr := log ++ stop.text ++ "\n" ++ record.lineAt level }

def readSource (surroundings : Surroundings) (encoding path : String) : Except String (List UInt8) :=
  match surroundings.look path with
  | .unreadable reason => .error s!"read source: open {path}: {reason}"
  | .directory => .error s!"read source: read {path}: is a directory"
  | .file bytes =>
    (surroundings.registry.decode encoding bytes).mapError fun error => s!"{path}: {error.message}"

def unreadable (level : Log.Level) (path message : String) : Output :=
  let record : Log.Record := ⟨.error, "cannot read source", [("file", path), ("err", message)]⟩
  { exit := 1, stderr := record.lineAt level ++ errorLine message }

def onSource (command : Command) (level : Log.Level) (settings : Settings) (json : Bool)
    (path : String) (source : List UInt8) : Output :=
  let output :=
    match command with
    | .tokens => listTokens json source
    | .parse => showTree source
    | .run => runSource level settings.shortCircuit path source
    | .repl => {}
  let about := [("command", command.name), ("file", path)]
  let started : Log.Record := ⟨.info, "command started", about⟩
  let finished : Log.Record :=
    ⟨.info, "command finished", about ++ [("exit", toString output.exit)]⟩
  { output with stderr := started.lineAt level ++ output.stderr ++ finished.lineAt level }

inductive Plan
  /-- It is done. -/
  | done (output : Output)
  /-- It opens a session. -/
  | interactive (settings : Settings) (level : Log.Level)
  deriving Repr

def withSettings (command : Command) (settings : Settings) (flags : Flags)
    (surroundings : Surroundings) : Plan :=
  match Log.Level.ofName? settings.logLevel with
  | none => .done { exit := 1, stderr := errorLine (Log.Level.invalid settings.logLevel) }
  | some level =>
    if command = .repl then .interactive settings level
    else match flags.positional with
      | [] => .done { exit := 1, stderr := errorLine "missing file argument" }
      | path :: _ =>
        match readSource surroundings settings.encoding path with
        | .error message => .done (unreadable level path message)
        | .ok source => .done (onSource command level settings flags.json path source)

def plan (arguments : List String) (surroundings : Surroundings) : Plan :=
  match arguments with
  | [] => .done { exit := 1, stderr := usage }
  | name :: rest =>
    match ofName? name with
    | none =>
      .done { exit := 1, stderr := errorLine s!"unknown command '{name}'" ++ usage }
    | some command =>
      match Flags.parse rest with
      | .error error =>
        let complaint := Flags.complaint name error
        if error = .help then .done { exit := 0, stderr := complaint }
        else .done { exit := 1, stderr := complaint ++ errorLine error.message }
      | .ok flags =>
        match Settings.resolve flags surroundings with
        | .error problem => .done { exit := 1, stderr := errorLine problem.message }
        | .ok settings => command.withSettings settings flags surroundings

def mentions (arguments : List String) : List String :=
  match Flags.parse (arguments.drop 1) with
  | .ok flags => Settings.defaultFile :: flags.config :: flags.positional.take 1
  | .error _ => []

end Command

end ClassScript
