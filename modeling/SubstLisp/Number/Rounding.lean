import SubstLisp.Number.Basic

/-!
# Rounding to integers

Floor, ceiling and rounding to the nearest integer give exact integers.  Integers are left as they
are, a fraction always has a result, and a floating-point number has one if it is finite and the
integer fits a word.
-/

namespace SubstLisp

/-- The integer nearest to `numerator / denominator`; a tie goes to the even neighbour. -/
def nearestInteger (numerator denominator : Int) : Int :=
  let floor := numerator / denominator
  match compare (2 * (numerator % denominator)) denominator with
  | .lt => floor
  | .eq => if floor % 2 = 0 then floor else floor + 1
  | .gt => floor + 1

namespace Fraction

/-- The greatest integer not above a fraction. -/
def floor (q : Fraction) : Int :=
  q.numerator.toInt / q.denominator.toInt

/-- The least integer above a fraction, which is never whole. -/
def ceiling (q : Fraction) : Int :=
  q.floor + 1

/-- The integer nearest to a fraction; a tie goes to the even neighbour. -/
def round (q : Fraction) : Int :=
  nearestInteger q.numerator.toInt q.denominator.toInt

end Fraction

/-- The rational number that a finite floating-point number stands for. -/
def floatValue? (x : Float) : Option Rat :=
  match x.toModel.unpack with
  | .zero _ => some 0
  | .finite .positive mantissa exponent _ => some (mantissa * 2 ^ exponent)
  | .finite .negative mantissa exponent _ => some (-(mantissa * 2 ^ exponent))
  | .infinity _ | .notANumber => none

/-- The integer that a rounding makes of a floating-point number.  One whose integer does not fit a
word is a whole number itself. -/
def roundFloat (rounding : Rat → Int) (x : Float) : Except ArithmeticError Number :=
  match (floatValue? x).bind fun value => wordOf? (rounding value) with
  | some n => .ok (.integer n)
  | none => .error (.outOfRange x)

namespace Number

/-- The greatest integer not above a number. -/
def floor : Number → Except ArithmeticError Number
  | .integer n => .ok (.integer n)
  | .fraction q => .ok (.integer (Int64.ofInt q.floor))
  | .float x => roundFloat Rat.floor x

/-- The least integer not below a number. -/
def ceiling : Number → Except ArithmeticError Number
  | .integer n => .ok (.integer n)
  | .fraction q => .ok (.integer (Int64.ofInt q.ceiling))
  | .float x => roundFloat Rat.ceil x

/-- The integer nearest to a number; a tie goes to the even neighbour. -/
def round : Number → Except ArithmeticError Number
  | .integer n => .ok (.integer n)
  | .fraction q => .ok (.integer (Int64.ofInt q.round))
  | .float x => roundFloat (fun value => nearestInteger value.num value.den) x

end Number

end SubstLisp
