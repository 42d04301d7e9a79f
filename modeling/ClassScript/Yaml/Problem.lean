/-! # What can be wrong with a YAML text

Each cause has one wording. A problem is a cause with the line it is reported at. Problems of the
encoding and of what a document means have no line. Neither has a problem on the first line of all.
-/

namespace ClassScript.Yaml

inductive Cause
  -- its bytes
  | invalidLead
  | incompleteSequence
  | invalidTrail
  | invalidLength
  | invalidCharacter
  | control
  | incompleteUnit
  | unexpectedLow
  | incompletePair
  | expectedLow
  -- its tokens
  | noToken
  | missingColon
  | misplacedEntry
  | misplacedKey
  | misplacedValue
  | tooDeep
  | tabInPlain
  | tabInBlock
  | zeroIndentation
  | missingLineEnd
  | documentInQuotes
  | openQuote
  | unknownEscape
  | missingHexadecimal
  | invalidEscape
  | missingName
  | missingHandle
  | missingAddress
  | missingOctet
  | escapedLead
  | escapedTrail
  | missingBracket
  | missingBlank
  | missingGap
  | missingDirective
  | invalidDirective
  | unknownDirective
  | missingVersion
  | missingPoint
  | longVersion
  -- its structure
  | repeatedVersion
  | incompatibleVersion
  | repeatedHandle
  | missingDocument
  | undefinedHandle
  | missingContent
  | missingDash
  | missingKey
  | openSequence
  | openMapping
  -- its meaning
  | unknownAnchor (name : String)
  | selfReference (name : String)
  | tooManyReferences
  | undecodable (found text asked : String)
  | invalidBinary
  | mergeValue
  deriving DecidableEq, Repr, Inhabited

def Cause.text : Cause → String
  | .invalidLead => "invalid leading UTF-8 octet"
  | .incompleteSequence => "incomplete UTF-8 octet sequence"
  | .invalidTrail => "invalid trailing UTF-8 octet"
  | .invalidLength => "invalid length of a UTF-8 sequence"
  | .invalidCharacter => "invalid Unicode character"
  | .control => "control characters are not allowed"
  | .incompleteUnit => "incomplete UTF-16 character"
  | .unexpectedLow => "unexpected low surrogate area"
  | .incompletePair => "incomplete UTF-16 surrogate pair"
  | .expectedLow => "expected low surrogate area"
  | .noToken => "found character that cannot start any token"
  | .missingColon => "could not find expected ':'"
  | .misplacedEntry => "block sequence entries are not allowed in this context"
  | .misplacedKey => "mapping keys are not allowed in this context"
  | .misplacedValue => "mapping values are not allowed in this context"
  | .tooDeep => "exceeded max depth of 10000"
  | .tabInPlain => "found a tab character that violates indentation"
  | .tabInBlock => "found a tab character where an indentation space is expected"
  | .zeroIndentation => "found an indentation indicator equal to 0"
  | .missingLineEnd => "did not find expected comment or line break"
  | .documentInQuotes => "found unexpected document indicator"
  | .openQuote => "found unexpected end of stream"
  | .unknownEscape => "found unknown escape character"
  | .missingHexadecimal => "did not find expected hexdecimal number"
  | .invalidEscape => "found invalid Unicode character escape code"
  | .missingName => "did not find expected alphabetic or numeric character"
  | .missingHandle => "did not find expected '!'"
  | .missingAddress => "did not find expected tag URI"
  | .missingOctet => "did not find URI escaped octet"
  | .escapedLead => "found an incorrect leading UTF-8 octet"
  | .escapedTrail => "found an incorrect trailing UTF-8 octet"
  | .missingBracket => "did not find the expected '>'"
  | .missingBlank => "did not find expected whitespace"
  | .missingGap => "did not find expected whitespace or line break"
  | .missingDirective => "could not find expected directive name"
  | .invalidDirective => "found unexpected non-alphabetical character"
  | .unknownDirective => "found unknown directive name"
  | .missingVersion => "did not find expected version number"
  | .missingPoint => "did not find expected digit or '.' character"
  | .longVersion => "found extremely long version number"
  | .repeatedVersion => "found duplicate %YAML directive"
  | .incompatibleVersion => "found incompatible YAML document"
  | .repeatedHandle => "found duplicate %TAG directive"
  | .missingDocument => "did not find expected <document start>"
  | .undefinedHandle => "found undefined tag handle"
  | .missingContent => "did not find expected node content"
  | .missingDash => "did not find expected '-' indicator"
  | .missingKey => "did not find expected key"
  | .openSequence => "did not find expected ',' or ']'"
  | .openMapping => "did not find expected ',' or '\x7d'"
  | .unknownAnchor name => s!"unknown anchor '{name}' referenced"
  | .selfReference name => s!"anchor '{name}' value contains itself"
  | .tooManyReferences => "document contains excessive aliasing"
  | .undecodable found text asked => s!"cannot decode {found} \x60{text}\x60 as a {asked}"
  | .invalidBinary => "!!binary value contains invalid base64 data"
  | .mergeValue => "map merge requires map or sequence of maps as the value"

structure Problem where
  cause : Cause
  /-- The line it is reported at; zero when it is reported without one. -/
  line : Nat := 0
  deriving DecidableEq, Repr, Inhabited

namespace Problem

/-- A problem within a token that begins on line `start`, found on line `here`, both counted from
    zero. It is placed where the token begins, unless that is the first line. -/
def inToken (start here : Nat) (cause : Cause) : Problem :=
  let line := if start = 0 then here else start
  ⟨cause, if line = 0 then 0 else line + 1⟩

/-- A problem between tokens, in something that begins on line `start`, found on line `here`, both
    counted from zero. The line before it is reported. -/
def inStructure (start here : Nat) (cause : Cause) : Problem :=
  ⟨cause, if start = 0 then here else start⟩

def message (p : Problem) : String :=
  if p.line = 0 then p.cause.text else s!"line {p.line}: {p.cause.text}"

end Problem

end ClassScript.Yaml
