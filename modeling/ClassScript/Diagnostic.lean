import ClassScript.Token.Kind

/-! # Diagnostics

What the lexer and the parser have to say about a source. A diagnostic is a cause with a span; the
wording and the code of each cause are fixed here and nowhere else.
-/

namespace ClassScript

inductive Severity
  | error
  | warning
  | other
  deriving DecidableEq, Repr, Inhabited

namespace Severity

def name : Severity → String
  | .error => "error"
  | .warning => "warning"
  | .other => "unknown"

/-- The severity with a number: 0 is an error and 1 a warning. -/
def ofCode (code : Int) : Severity :=
  if code = 0 then .error else if code = 1 then .warning else .other

end Severity

/-- What a diagnostic complains about. The strings are lexemes of the tokens involved. -/
inductive Complaint
  /-- A character that begins no token. -/
  | strayCharacter (c : Char)
  /-- A single ampersand or bar, where only the doubled one is an operator. -/
  | halfOperator (c : Char)
  /-- A block comment that the source ends in. -/
  | openComment
  /-- An exponent sign with no digit after it. -/
  | emptyExponent
  /-- An integer literal that 64 bits cannot hold. -/
  | integerRange (lexeme : String)
  /-- A literal that is no number, or one beyond the largest double. -/
  | malformedNumber (lexeme : String)
  /-- One kind of token was required and another one stood there. -/
  | expectedKind (expected found : Kind)
  /-- A token that begins no statement. -/
  | unexpectedToken (lexeme : String)
  /-- Nothing to initialise a variable with. -/
  | missingInitializer (found : String)
  /-- Nothing between the parentheses of a condition. -/
  | missingCondition (found : String)
  /-- Nothing to assign. -/
  | missingAssigned (operator : String)
  /-- No right operand. -/
  | missingOperand (operator found : String)
  /-- No argument after a comma or an opening parenthesis. -/
  | missingArgument (found : String)
  /-- Something in a class body that declares no member. -/
  | strayMember (found : String)
  /-- Modifiers with no declaration after them. -/
  | strayModifiers (found : String)
  /-- An assignment to something that is no variable. -/
  | badTarget (operator : String)
  /-- A complaint of the host, worded by it. -/
  | custom (code message : String)
  deriving DecidableEq, Repr

namespace Complaint

/-- The stable code of a complaint: `E1…` for tokens and numbers, `E2…` for their order. -/
def code : Complaint → String
  | .strayCharacter _ | .halfOperator _ | .openComment => "E1001"
  | .emptyExponent | .integerRange _ | .malformedNumber _ => "E1002"
  | .expectedKind _ _ => "E2001"
  | .unexpectedToken _ | .missingInitializer _ | .missingCondition _ | .missingAssigned _
  | .missingOperand _ _ | .missingArgument _ => "E2002"
  | .strayMember _ => "E2003"
  | .badTarget _ => "E2004"
  | .strayModifiers _ => "E2005"
  | .custom code _ => code

def message : Complaint → String
  | .strayCharacter c => s!"unexpected character: '{c}'"
  | .halfOperator c => s!"unexpected character: '{c}', did you mean '{c}{c}'?"
  | .openComment => "unterminated block comment"
  | .emptyExponent => "malformed exponent in number literal"
  | .integerRange lexeme => s!"integer literal out of range: {lexeme}"
  | .malformedNumber lexeme => s!"malformed number literal: {lexeme}"
  | .expectedKind expected found => s!"expected '{expected.name}', got '{found.name}'"
  | .unexpectedToken lexeme => s!"unexpected token: '{lexeme}'"
  | .missingInitializer found => s!"expected initializer, got '{found}'"
  | .missingCondition found => s!"expected condition, got '{found}'"
  | .missingAssigned operator => s!"expected expression after '{operator}'"
  | .missingOperand operator found => s!"expected operand after '{operator}', got '{found}'"
  | .missingArgument found => s!"expected argument, got '{found}'"
  | .strayMember found => s!"expected field, function or class declaration, got '{found}'"
  | .strayModifiers found => s!"modifiers must precede a declaration, got '{found}'"
  | .badTarget operator => s!"invalid target for '{operator}'"
  | .custom _ message => message

end Complaint

structure Diagnostic where
  complaint : Complaint
  span : Span
  severity : Severity := .error
  /-- Advice to the writer; empty when there is none. -/
  hint : String := ""
  deriving DecidableEq, Repr

namespace Diagnostic

def code (d : Diagnostic) : String := d.complaint.code

def message (d : Diagnostic) : String := d.complaint.message

def text (d : Diagnostic) : String :=
  "[" ++ d.code ++ "] " ++ d.severity.name ++ " at " ++ d.span.first.text ++ ": " ++ d.message ++
    (if d.hint = "" then "" else " (hint: " ++ d.hint ++ ")")

def anyError (ds : List Diagnostic) : Bool :=
  ds.any (·.severity = .error)

def texts (ds : List Diagnostic) : String :=
  "\n".intercalate (ds.map text)

end Diagnostic

end ClassScript
