/-!
# Number literals

The written forms of numbers: signed integers, and decimals with an optional fraction and an
optional exponent.  A literal is read from a list of characters and must use all of it.
-/

namespace SubstLisp

/-- An optional sign: whether it is a minus, and the characters after it. -/
def splitSign : List Char → Bool × List Char
  | '-' :: rest => (true, rest)
  | '+' :: rest => (false, rest)
  | cs => (false, cs)

/-- The number that a run of digits denotes; the run must not be empty or hold anything else. -/
def naturalLiteral? (cs : List Char) : Option Nat :=
  if !cs.isEmpty && cs.all Char.isDigit then some (Nat.ofDigitChars 10 cs 0) else none

/-- The number that an optional sign and a run of digits denote. -/
def integerLiteral? (cs : List Char) : Option Int :=
  let (negative, magnitude) := splitSign cs
  (naturalLiteral? magnitude).map fun n => if negative then -(n : Int) else n

/-- Split a list at the first occurrence of a character, which is dropped. -/
def splitAtFirst? (separator : Char) : List Char → Option (List Char × List Char)
  | [] => none
  | c :: rest =>
      if c = separator then some ([], rest)
      else (splitAtFirst? separator rest).map fun (before, after) => (c :: before, after)

/-- The exponent part of a decimal: nothing, or `e` in either case and a signed integer. -/
def exponentLiteral? : List Char → Option Int
  | [] => some 0
  | c :: rest => if c = 'e' || c = 'E' then integerLiteral? rest else none

/-- The binary64 number nearest to `coefficient * 10 ^ exponent`; a tie goes to the even
mantissa. -/
def nearestFloat (coefficient : Nat) (exponent : Int) : Float :=
  Float.ofScientific coefficient (exponent < 0) exponent.natAbs

/-- The number that an unsigned decimal denotes.  It needs a digit before or after the point. -/
def unsignedDecimalLiteral? (cs : List Char) : Option Float :=
  let whole := cs.takeWhile Char.isDigit
  let afterWhole := cs.dropWhile Char.isDigit
  let fraction := match afterWhole with
    | '.' :: rest => rest.takeWhile Char.isDigit
    | _ => []
  let afterFraction := match afterWhole with
    | '.' :: rest => rest.dropWhile Char.isDigit
    | rest => rest
  if whole.isEmpty && fraction.isEmpty then none
  else (exponentLiteral? afterFraction).map fun exponent =>
    nearestFloat (Nat.ofDigitChars 10 (whole ++ fraction) 0) (exponent - fraction.length)

/-- The number that an optional sign and a decimal denote. -/
def decimalLiteral? (cs : List Char) : Option Float :=
  let (negative, magnitude) := splitSign cs
  (unsignedDecimalLiteral? magnitude).map fun x => if negative then -x else x

end SubstLisp
