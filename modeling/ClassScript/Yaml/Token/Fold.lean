import ClassScript.Yaml.Place

/-! # Gaps within scalars

A scalar may go on over several lines. Where it does, the blanks around a line break do not count: a
single break stands for a space, and of several the first one is dropped.
-/

namespace ClassScript.Yaml

structure Gap where
  /-- The blanks before any line break. -/
  blanks : List Char := []
  /-- What the first line break stands for. -/
  first : List Char := []
  /-- What the further line breaks stand for. -/
  further : List Char := []
  /-- Whether a line ended. -/
  broken : Bool := false
  deriving DecidableEq, Repr, Inhabited

namespace Gap

/-- What a gap stands for. -/
def text (g : Gap) : List Char :=
  if !g.broken then g.blanks
  else if g.first = ['\n'] then (if g.further.isEmpty then [' '] else g.further)
  else g.first ++ g.further

/-- Read on in a gap. A line must not be indented by tabs before column `floor`; `start` is the line
    where the scalar begins. -/
def read (floor start : Nat) : (fuel : Nat) → Gap → Reading Gap
  | 0, g => return g
  | fuel + 1, g => do
    let place ← get
    let c := place.ahead 0
    if isBlank c then
      if g.broken && c = '\t' && place.mark.column < floor then Reading.fail start .tabInPlain
      Reading.skip
      Reading.need 1
      read floor start fuel (if g.broken then g else { g with blanks := g.blanks ++ [c] })
    else if isBreak c then
      Reading.need 2
      let line ← Reading.takeBreak
      Reading.need 1
      read floor start fuel
        (if g.broken then { g with further := g.further ++ line }
          else { first := line, broken := true })
    else return g

end Gap

end ClassScript.Yaml
