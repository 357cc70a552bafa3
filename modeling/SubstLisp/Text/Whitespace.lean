/-!
# Whitespace

The characters with the Unicode property White_Space.  They are more than the blanks that separate
lexemes.
-/

namespace SubstLisp

/-- The Unicode property White_Space. -/
def isWhitespace (c : Char) : Bool :=
  ('\t' ≤ c && c ≤ '\r') || c = ' ' || c = '\u0085' || c = '\u00a0' || c = '\u1680' ||
    ('\u2000' ≤ c && c ≤ '\u200a') || c = '\u2028' || c = '\u2029' || c = '\u202f' ||
    c = '\u205f' || c = '\u3000'

/-- A list of characters without the whitespace at its end. -/
def trimEnd (cs : List Char) : List Char :=
  (cs.reverse.dropWhile isWhitespace).reverse

/-- A list of characters without the whitespace at both ends. -/
def trim (cs : List Char) : List Char :=
  trimEnd (cs.dropWhile isWhitespace)

end SubstLisp
