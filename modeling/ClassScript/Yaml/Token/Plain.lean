import ClassScript.Yaml.Token.Fold

/-! # Plain scalars

A scalar without quotes ends at a colon or a comment that is set off by blanks, and at the marks of
a document. Within brackets it ends at their marks too, and outside of them at a line that is not
indented enough.
-/

namespace ClassScript.Yaml.Plain

/-- Whether a plain scalar ends at a character, `d` being the one after it. -/
def endsAt (flow : Bool) (c d : Char) : Bool :=
  isGap c || (c = ':' && isGap d) || (flow && [',', '?', '[', ']', '\x7b', '\x7d'].contains c)

def word (flow : Bool) : (fuel : Nat) → List Char → Reading (List Char)
  | 0, text => return text
  | fuel + 1, text => do
    let place ← get
    if endsAt flow (place.ahead 0) (place.ahead 1) then return text
    else
      Reading.skip
      Reading.need 2
      word flow fuel (place.ahead 0 :: text)

/-- Take words, in front of the text read so far, which is reversed; `gap` is what stands between
    that and the next word. The answer tells too whether a line ended after the last word. -/
def words (flow : Bool) (floor start : Nat) : (fuel : Nat) → Gap → List Char →
    Reading (List Char × Bool)
  | 0, gap, text => return (text, gap.broken)
  | fuel + 1, gap, text => do
    Reading.need 4
    let place ← get
    if place.atDocumentMark || place.ahead 0 = '#'
        || endsAt flow (place.ahead 0) (place.ahead 1) then
      return (text, gap.broken)
    else
      let text ← word flow place.size (gap.text.reverse ++ text)
      let place ← get
      if isBlank (place.ahead 0) || isBreak (place.ahead 0) then
        Reading.need 1
        let gap ← Gap.read floor start place.size {}
        if !flow && (← get).mark.column < floor then return (text, gap.broken)
        else words flow floor start fuel gap text
      else return (text, false)

/-- Read a plain scalar. Lines that go on with it are indented to column `floor` at least, if it is
    not within brackets. The answer tells too whether a line ended after it. -/
def read (flow : Bool) (floor : Nat) : Reading (String × Bool) := do
  let place ← get
  let (text, broken) ← words flow floor place.mark.line (place.size + 1) {} []
  return (String.ofList text.reverse, broken)

end ClassScript.Yaml.Plain
