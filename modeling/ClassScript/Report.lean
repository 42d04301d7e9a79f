import ClassScript.Json
import ClassScript.Parser
import ClassScript.Syntax.Record
import ClassScript.Token.Lexer

/-! # Reports

How tokens, trees and diagnostics are shown to people, as lines, and to programs, as JSON.
-/

namespace ClassScript.Report

/-! ## Lines -/

def padded (width : Nat) (text : String) : String :=
  text ++ String.ofList (List.replicate (width - text.length) ' ')

def red (text : String) : String := "\x1b[31m" ++ text ++ "\x1b[0m"

def diagnostics (ds : List Diagnostic) : String :=
  String.join (ds.map fun d => d.text ++ "\n")

def coloredDiagnostics (ds : List Diagnostic) : String :=
  String.join (ds.map fun d => red d.text ++ "\n")

/-- A token in a table: kind, lexeme, place. -/
def tokenLine (t : Token) : String :=
  padded 12 t.kind.name ++ " " ++ padded 20 t.lexeme ++ " " ++ t.span.first.text ++ "\n"

def tokens (ts : List Token) : String :=
  String.join (ts.map tokenLine)

/-! ## Documents -/

def diagnosticRecord (d : Diagnostic) : Json :=
  .record <|
    [("code", .string d.code), ("column", .integer d.span.first.column)] ++
    (if d.hint = "" then [] else [("hint", .string d.hint)]) ++
    [("line", .integer d.span.first.line), ("message", .string d.message),
      ("offset", .integer d.span.first.offset), ("severity", .string d.severity.name)]

def diagnosticRecords (ds : List Diagnostic) : Json :=
  .list (ds.map diagnosticRecord)

def tokenRecord (t : Token) : Json :=
  .record [("kind", .string t.kind.name), ("lexeme", .string t.lexeme),
    ("line", .integer t.span.first.line), ("column", .integer t.span.first.column),
    ("offset", .integer t.span.first.offset)]

def tokenDocument (ts : List Token) (ds : List Diagnostic) : Json :=
  .record [("diagnostics", diagnosticRecords ds), ("tokens", .list (ts.map tokenRecord))]

def treeDocument (tree : Node) (ds : List Diagnostic) : Json :=
  .record [("ast", tree.record), ("diagnostics", diagnosticRecords ds)]

def unsupported (x : Float) : String :=
  "JSON encoding failed: json: unsupported value: " ++ Number.Layout.value.text x

end ClassScript.Report
