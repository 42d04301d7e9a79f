/-! # White space

White space as Unicode counts it, for texts that are trimmed before they are looked at.
-/

namespace ClassScript.Text

def isBlank (c : Char) : Bool :=
  ('\t' ≤ c && c ≤ '\x0d') || c = ' ' || c = '\u0085' || c = '\u00a0' || c = '\u1680'
    || ('\u2000' ≤ c && c ≤ '\u200a') || c = '\u2028' || c = '\u2029' || c = '\u202f'
    || c = '\u205f' || c = '\u3000'

def trim (text : String) : String :=
  let front := text.toList.dropWhile isBlank
  String.ofList (front.reverse.dropWhile isBlank).reverse

end ClassScript.Text
