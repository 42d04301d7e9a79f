/-! # Sets of characters as ranges

A class of characters that a standard fixes is kept as a list of closed ranges of code points.
The tables hold the characters beyond ASCII only: each class spells out its ASCII part as a
condition, so that statements about ASCII text never look into a table.
-/

namespace ClassScript.Text

abbrev Ranges := List (Nat × Nat)

def Ranges.contains (ranges : Ranges) (code : Nat) : Bool :=
  ranges.any fun r => r.1 ≤ code && code ≤ r.2

end ClassScript.Text
