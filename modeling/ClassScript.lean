import ClassScript.Command
import ClassScript.Diagnostic
import ClassScript.Encoding
import ClassScript.Encoding.Standard
import ClassScript.Evaluator
import ClassScript.Fault
import ClassScript.Interpreter
import ClassScript.Json
import ClassScript.Log
import ClassScript.Machine
import ClassScript.Main
import ClassScript.Number.Binary
import ClassScript.Number.Layout
import ClassScript.Number.Literal
import ClassScript.Number.Power
import ClassScript.Number.Shortest
import ClassScript.Operation
import ClassScript.Parser
import ClassScript.Parser.Cursor
import ClassScript.Parser.Expression
import ClassScript.Parser.Statement
import ClassScript.Proofs.Command
import ClassScript.Proofs.Encoding
import ClassScript.Proofs.Evaluator.Budget
import ClassScript.Proofs.Evaluator.Calls
import ClassScript.Proofs.Evaluator.Erasure
import ClassScript.Proofs.Evaluator.Frame
import ClassScript.Proofs.Evaluator.History
import ClassScript.Proofs.Evaluator.Loops
import ClassScript.Proofs.Evaluator.Simulation
import ClassScript.Proofs.Evaluator.Thinning
import ClassScript.Proofs.Interpreter.Assignment
import ClassScript.Proofs.Interpreter.Batch
import ClassScript.Proofs.Interpreter.Blame
import ClassScript.Proofs.Interpreter.Compound
import ClassScript.Proofs.Interpreter.Doubles
import ClassScript.Proofs.Interpreter.Identity
import ClassScript.Proofs.Interpreter.Locality
import ClassScript.Proofs.Interpreter.Loops
import ClassScript.Proofs.Interpreter.Reachable
import ClassScript.Proofs.Interpreter.Safety
import ClassScript.Proofs.Interpreter.ShortCircuit
import ClassScript.Proofs.Interpreter.Signs
import ClassScript.Proofs.Interpreter.Spans
import ClassScript.Proofs.Number.Bits
import ClassScript.Proofs.Number.Literal
import ClassScript.Proofs.Number.Nearest
import ClassScript.Proofs.Number.Power
import ClassScript.Proofs.Number.Shortest
import ClassScript.Proofs.Number.Text
import ClassScript.Proofs.Operation
import ClassScript.Proofs.Parser.Answers
import ClassScript.Proofs.Parser.Completeness
import ClassScript.Proofs.Parser.Diagnostics
import ClassScript.Proofs.Parser.Graft
import ClassScript.Proofs.Parser.Grammar
import ClassScript.Proofs.Parser.Headers
import ClassScript.Proofs.Parser.Image
import ClassScript.Proofs.Parser.Join
import ClassScript.Proofs.Parser.LineBreaks
import ClassScript.Proofs.Parser.Nesting
import ClassScript.Proofs.Parser.Onward
import ClassScript.Proofs.Parser.Parts
import ClassScript.Proofs.Parser.Precedence
import ClassScript.Proofs.Parser.Progress
import ClassScript.Proofs.Parser.RoundTrip
import ClassScript.Proofs.Parser.RoundTrip.Declaration
import ClassScript.Proofs.Parser.RoundTrip.Expression
import ClassScript.Proofs.Parser.RoundTrip.Statement
import ClassScript.Proofs.Parser.Run
import ClassScript.Proofs.Parser.Soundness
import ClassScript.Proofs.Parser.Soundness.Expression
import ClassScript.Proofs.Parser.Soundness.Statement
import ClassScript.Proofs.Parser.Trees
import ClassScript.Proofs.Parser.Widening
import ClassScript.Proofs.Session
import ClassScript.Proofs.Settings
import ClassScript.Proofs.Store.Code
import ClassScript.Proofs.Store.Erasure
import ClassScript.Proofs.Store.History
import ClassScript.Proofs.Store.Linked
import ClassScript.Proofs.Store.Resolution
import ClassScript.Proofs.Store.Thinning
import ClassScript.Proofs.Store.WellFormed
import ClassScript.Proofs.Syntax.Complete
import ClassScript.Proofs.Syntax.Methods
import ClassScript.Proofs.Syntax.Precedence
import ClassScript.Proofs.Syntax.Record
import ClassScript.Proofs.Syntax.Spans
import ClassScript.Proofs.Syntax.Unparse
import ClassScript.Proofs.Text.Utf8
import ClassScript.Proofs.Token.Braces
import ClassScript.Proofs.Token.Join
import ClassScript.Proofs.Token.Kinds
import ClassScript.Proofs.Token.Reports
import ClassScript.Proofs.Token.Respacing
import ClassScript.Proofs.Token.Tiling
import ClassScript.Report
import ClassScript.Session
import ClassScript.Settings
import ClassScript.Settings.File
import ClassScript.Settings.Flags
import ClassScript.Span
import ClassScript.Store
import ClassScript.Syntax.Node
import ClassScript.Syntax.Operator
import ClassScript.Syntax.Record
import ClassScript.Text.Base64
import ClassScript.Text.Blank
import ClassScript.Text.Digit
import ClassScript.Text.Letter
import ClassScript.Text.Printable
import ClassScript.Text.Quoted
import ClassScript.Text.Ranges
import ClassScript.Text.Utf8
import ClassScript.Token
import ClassScript.Token.Kind
import ClassScript.Token.Lexer
import ClassScript.Token.Piece
import ClassScript.Value
import ClassScript.Yaml.Document
import ClassScript.Yaml.Node
import ClassScript.Yaml.Place
import ClassScript.Yaml.Problem
import ClassScript.Yaml.Scalar
import ClassScript.Yaml.Source
import ClassScript.Yaml.Token
import ClassScript.Yaml.Token.Block
import ClassScript.Yaml.Token.Fold
import ClassScript.Yaml.Token.Plain
import ClassScript.Yaml.Token.Property
import ClassScript.Yaml.Token.Quoted
import ClassScript.Yaml.Token.Stream
