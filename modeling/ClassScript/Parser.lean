import ClassScript.Parser.Statement
import ClassScript.Token.Lexer

/-! # Programs from tokens

The grammar's recursion is cut off at a depth. Between two steps of the recursion that take no
token the goal gets smaller, so a depth of four for each token is never reached (the token list is
finite, whatever it holds).
-/

namespace ClassScript

namespace Parser

/-- Parse a part of the grammar, with recursion no deeper than `depth`. -/
def parse : (depth : Nat) → Goal → Parser Node
  | 0, _ => failure
  | depth + 1, goal => rule (parse depth) goal

/-- A whole program: statements up to the end token. -/
def program (depth : Nat) : Parser Node := do
  let start := (← peek).span.first
  let children ← statements (parse depth) (· ≠ .endOfFile)
  return .tree ⟨start, (← peek).span.last⟩ children

/-- A depth that no token list of the given length exceeds. -/
def depthFor (tokens : List Token) : Nat := 4 * (tokens.length + 1)

def run (tokens : List Token) : Option (Node × Cursor) :=
  program (depthFor tokens) { rest := tokens }

end Parser

def parseTokens (tokens : List Token) : Node × List Diagnostic :=
  match Parser.run tokens with
  | some (tree, cursor) => (tree, cursor.diagnostics)
  | none => (.absent, [])

def parseSource (source : List UInt8) : Node × List Diagnostic :=
  let (tokens, lexical) := tokenize source
  let (tree, grammatical) := parseTokens tokens
  (tree, lexical ++ grammatical)

end ClassScript
