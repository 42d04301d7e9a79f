import ClassScript.Diagnostic
import ClassScript.Token
import ClassScript.Token.Piece

/-! # Tokens of a source

The pieces of a source are placed one after the other. Tokens and diagnostics are read off the
placed pieces: each diagnostic of this stage is about exactly one piece and has its span.
-/

namespace ClassScript

structure PlacedPiece where
  piece : Piece
  span : Span
  deriving DecidableEq, Repr

namespace PlacedPiece

def token? (p : PlacedPiece) : Option Token :=
  match p.piece.form with
  | .token kind => some ⟨kind, Piece.lexeme kind p.piece.bytes, p.span⟩
  | _ => none

def complaint? (p : PlacedPiece) : Option Complaint :=
  match p.piece.form, p.piece.bytes with
  | .token .illegal, b :: _ =>
    if b = byte '&' then some (.halfOperator '&')
    else if b = byte '|' then some (.halfOperator '|')
    else some (.strayCharacter (Char.ofNat b.toNat))
  | .token .double, bytes =>
    if (bytes.getLast?.map Piece.isSign).getD false then some .emptyExponent else none
  | .blockComment false, _ => some .openComment
  | _, _ => none

def diagnostic? (p : PlacedPiece) : Option Diagnostic :=
  p.complaint?.map fun complaint => { complaint, span := p.span }

end PlacedPiece

namespace Piece

/-- Pieces put one after the other, the first one at `here`. -/
def place (here : Position) : List Piece → List PlacedPiece
  | [] => []
  | p :: rest =>
    let after := here.advance p.bytes
    ⟨p, ⟨here, after⟩⟩ :: place after rest

end Piece

def placedPieces (source : List UInt8) : List PlacedPiece :=
  Piece.place .start (Piece.cut source)

def endToken (source : List UInt8) : Token :=
  let here := Position.start.advance source
  ⟨.endOfFile, "", ⟨here, here⟩⟩

def tokenize (source : List UInt8) : List Token × List Diagnostic :=
  let placed := placedPieces source
  (placed.filterMap PlacedPiece.token? ++ [endToken source],
    placed.filterMap PlacedPiece.diagnostic?)

end ClassScript
