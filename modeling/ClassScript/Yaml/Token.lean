import ClassScript.Yaml.Problem

/-! # Tokens of YAML

A text is cut into tokens before its structure is read. Indentation is turned into tokens too: where
a collection begins by indentation and where it ends.
-/

namespace ClassScript.Yaml

/-- A handle for tags and what it stands for. -/
structure Handle where
  name : String
  meaning : String
  deriving DecidableEq, Repr, Inhabited

inductive TokenKind
  | streamStart
  | version (major minor : Nat)
  | handle (handle : Handle)
  | documentStart
  | documentEnd
  | streamEnd
  | blockSequenceStart
  | blockMappingStart
  | blockEnd
  | flowSequenceStart
  | flowSequenceEnd
  | flowMappingStart
  | flowMappingEnd
  | blockEntry
  | flowEntry
  | key
  | value
  | reference (name : String)
  | anchor (name : String)
  /-- A tag in two parts: a handle, which may be empty, and what follows it. -/
  | tag (handle suffix : String)
  | scalar (text : String) (plain : Bool)
  deriving DecidableEq, Repr, Inhabited

structure Token where
  kind : TokenKind
  /-- The line it begins on, counted from zero. -/
  line : Nat
  /-- What was noticed to be wrong with the text before the token was handed on. -/
  noticed : Option Cause := none
  deriving DecidableEq, Repr, Inhabited

structure TokenStream where
  tokens : List Token
  problem : Option Problem
  deriving DecidableEq, Repr, Inhabited

end ClassScript.Yaml
