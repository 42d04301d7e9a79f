import ClassScript.Text.Quoted
import ClassScript.Token.Kind

/-! # Tokens

A token is a kind with its lexeme and the span it was cut from.
-/

namespace ClassScript

structure Token where
  kind : Kind
  lexeme : String
  span : Span
  deriving DecidableEq, Repr, Inhabited

namespace Token

def missing : Token := ⟨.endOfFile, "", .none⟩

def text (t : Token) : String :=
  t.kind.name ++ " " ++ Text.quote t.lexeme ++ " " ++ t.span.first.text

end Token

end ClassScript
