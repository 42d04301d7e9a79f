import ClassScript.Command
import ClassScript.Encoding.Standard
import ClassScript.Session
import ClassScript.Settings.File

/-! # The program

Arguments, environment and files come in, and what the command writes goes out. Settings files are in
YAML, and sources in one of the standard encodings. A session reads lines until its input ends or a
line says `exit`.
-/

namespace ClassScript.Main

def knows (name : String) : IO Bool := do
  try
    discard (IO.FS.realPath name)
    return true
  catch _ => return false

def look (name : String) : IO Entry := do
  try
    return .file (← IO.FS.readBinFile name).toList
  catch
    | .inappropriateType .. => return .directory
    | .permissionDenied .. => return .unreadable "permission denied"
    | _ => return .missing

def watched : List String := ["HOME", "NSC_LOG_LEVEL", "NSC_ENCODING", "NSC_SHORT_CIRCUIT"]

def find {α : Type} (pairs : List (String × α)) (absent : α) (name : String) : α :=
  ((pairs.find? (·.1 = name)).map (·.2)).getD absent

def surroundings (arguments : List String) : IO Surroundings := do
  let mentioned := Command.mentions arguments
  let known ← mentioned.mapM fun name => return (name, ← knows name)
  let entries ← mentioned.mapM fun name => return (name, ← look name)
  let values ← watched.mapM fun name => return (name, (← IO.getEnv name).getD "")
  return {
    knows := find known false
    look := find entries .missing
    environment := find values ""
    format := Settings.yaml
    registry := .standard }

/-- Ask for lines and run the chunks they make. -/
partial def interact (input output errors : IO.FS.Stream) (level : Log.Level) (session : Session) :
    IO Unit := do
  output.putStr (if session.pending then "\x1b[90m...  \x1b[0m" else "\x1b[32mnsc> \x1b[0m")
  output.flush
  let line ← input.getLine
  if line.isEmpty then output.putStrLn ""
  else
    let text := String.ofList (line.toList.reverse.dropWhile (· = '\n')).reverse
    if !session.pending && Text.trim text = "exit" then return
    match session.feed text with
    | (none, session) => interact input output errors level session
    | (some chunk, session) =>
      let (complaint, session) := session.run chunk
      let (written, events, machine) := Interpreter.take session.machine
      output.putStr written
      output.flush
      errors.putStr (Log.events level events ++ complaint)
      interact input output errors level { session with machine }

def openSession (settings : Settings) (level : Log.Level) : IO Unit := do
  let output ← IO.getStdout
  let errors ← IO.getStderr
  output.putStr
    "\x1b[1m\x1b[36mnsc REPL\x1b[0m \x1b[90m(type 'exit' or Ctrl+D to quit)\x1b[0m\n\n"
  let started : Log.Record := ⟨.info, "repl started", [("history", settings.historyFile),
    ("short_circuit", if settings.shortCircuit then "true" else "false")]⟩
  errors.putStr (started.lineAt level)
  interact (← IO.getStdin) output errors level
    { policy := { shortCircuit := settings.shortCircuit }, machine := Interpreter.start [] }
  let finished : Log.Record := ⟨.info, "repl finished", []⟩
  errors.putStr (finished.lineAt level)

end ClassScript.Main

def main (arguments : List String) : IO UInt32 := do
  match ClassScript.Command.plan arguments (← ClassScript.Main.surroundings arguments) with
  | .done output =>
    (← IO.getStdout).putStr output.stdout
    (← IO.getStderr).putStr output.stderr
    return UInt32.ofNat output.exit
  | .interactive settings level =>
    ClassScript.Main.openSession settings level
    return 0
