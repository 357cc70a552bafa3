import SubstLisp.Decimal.Shortest

/-!
# The text of a floating-point number

Finite numbers are written with the fewest digits that read back to the same number.  A negative
sign is kept on zero; the infinities and the value that is not a number have names of their own,
and the latter has no sign.
-/

namespace SubstLisp

open Float.Model (UnpackedFloat)
open Float.Model.UnpackedFloat (Sign)

/-- The sign in front of a negative number. -/
def signText : Sign → String
  | .positive => ""
  | .negative => "-"

/-- The text of a floating-point number, given the two ways to write its magnitude. -/
def unpackedText (zero : String) (magnitude : Decimal → String) : UnpackedFloat → String
  | .infinity sign => signText sign ++ "inf"
  | .notANumber => "NaN"
  | .zero sign => signText sign ++ zero
  | .finite sign mantissa exponent _ =>
      signText sign ++ magnitude (Decimal.shortest mantissa exponent)

/-- A floating-point number by position, for instance `0.0000001`. -/
def floatText (x : Float) : String :=
  unpackedText "0" Decimal.positional x.toModel.unpack

/-- A floating-point number with an exponent, for instance `1e-7`. -/
def floatScientificText (x : Float) : String :=
  unpackedText "0e0" Decimal.scientific x.toModel.unpack

end SubstLisp
