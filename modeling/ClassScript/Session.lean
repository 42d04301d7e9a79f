import ClassScript.Interpreter
import ClassScript.Parser
import ClassScript.Report
import ClassScript.Text.Blank
import ClassScript.Text.Utf8

/-! # Interactive sessions

A session collects lines until their braces balance and then runs them as one chunk. All chunks run
on one machine, so declarations persist.
-/

namespace ClassScript

/-- A session: how it runs programs, its machine, and the lines it has not run yet. -/
structure Session where
  policy : Policy
  machine : Machine
  buffer : String := ""
  /-- How many more braces were opened than closed. -/
  depth : Int := 0

namespace Session

def braces (line : String) : Int :=
  (line.toList.count '\x7b' : Int) - line.toList.count '\x7d'

def reset (s : Session) : Session := { s with buffer := "", depth := 0 }

/-- Whether a block is still open. -/
def pending (s : Session) : Bool := 0 < s.depth

/-- Add a line. A chunk comes back once no block is open. -/
def feed (s : Session) (line : String) : Option String × Session :=
  let grown := { s with buffer := s.buffer ++ line ++ "\n", depth := s.depth + braces line }
  if grown.pending then (none, grown) else (some grown.buffer, grown.reset)

/-- Run a chunk. What there is to complain about comes back. -/
def run (s : Session) (chunk : String) : String × Session :=
  if chunk.toList.all Text.isBlank then ("", s)
  else
    let (tree, diagnostics) := parseSource (Text.Utf8.encode chunk.toList)
    if Diagnostic.anyError diagnostics then (Report.coloredDiagnostics diagnostics, s)
    else
      let (outcome, machine) := Interpreter.evaluate s.policy tree s.machine
      let complaint :=
        match outcome with
        | .value _ => ""
        | .stopped stop => Report.red ("error: " ++ stop.text) ++ "\n"
      (complaint, { s with machine })

end Session

end ClassScript
