import ClassScript.Text.Quoted

/-! # Character encodings

A source is brought to UTF-8 before it is read. Which encodings there are and what their bytes mean
is up to a registry. A source that is said to be in UTF-8 may begin with a byte order mark, and then
the mark has the last word.
-/

namespace ClassScript

abbrev Decoder := List UInt8 → Except String (List UInt8)

structure Encoding where
  decoder : Decoder
  /-- Whether this is UTF-8 itself. -/
  isUtf8 : Bool

structure Registry where
  /-- The encoding with a name, or the reason why there is none. A name can be registered for an
      encoding that cannot be read. -/
  encoding : String → Except String (Option Encoding)
  /-- Follow the byte order mark in front, if there is one, and a decoder otherwise. -/
  sniff : Decoder → Decoder

namespace Encoding

inductive NameError
  | unknown (name reason : String)
  /-- The encoding is registered but cannot be read. -/
  | unsupported (name : String)
  deriving DecidableEq, Repr

def NameError.message : NameError → String
  | .unknown name reason => s!"unknown encoding {Text.quote name}: {reason}"
  | .unsupported name => s!"unsupported encoding {Text.quote name}"

inductive DecodeError
  | badName (error : NameError)
  | refused (name reason : String)
  deriving DecidableEq, Repr

def DecodeError.message : DecodeError → String
  | .badName error => error.message
  | .refused name reason => s!"decode as {name}: {reason}"

def defaultName : String := "UTF-8"

end Encoding

namespace Registry

open Encoding

/-- The encoding with a name. No name at all means the default. -/
def lookup (registry : Registry) (name : String) : Except NameError Encoding :=
  let name := if name.isEmpty then defaultName else name
  match registry.encoding name with
  | .error reason => .error (.unknown name reason)
  | .ok none => .error (.unsupported name)
  | .ok (some encoding) => .ok encoding

def decoderFor (registry : Registry) (encoding : Encoding) : Decoder :=
  if encoding.isUtf8 then registry.sniff encoding.decoder else encoding.decoder

def decode (registry : Registry) (name : String) (bytes : List UInt8) :
    Except DecodeError (List UInt8) :=
  match registry.lookup name with
  | .error error => .error (.badName error)
  | .ok encoding =>
    match registry.decoderFor encoding bytes with
    | .error reason => .error (.refused name reason)
    | .ok text => .ok text

end Registry

end ClassScript
