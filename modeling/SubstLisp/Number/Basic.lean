import SubstLisp.Decimal.FloatText
import SubstLisp.Number.Word

/-!
# Numbers

A number is an exact integer, an exact fraction or a floating-point number.  An exact number has
one canonical form: a fraction is in lowest terms with a denominator of at least two, so that a
whole quotient is always an integer.

Two numbers are alike when they are of the same kind and equal as such.  Floating-point numbers
follow their own equality: the two zeros are alike, and what is not a number is alike to nothing.
-/

namespace SubstLisp

/-- The quotient of two words. -/
structure Fraction where
  numerator : Word
  denominator : Word
deriving DecidableEq, Inhabited

/-- Lowest terms, with a denominator of at least two. -/
def Fraction.Canonical (q : Fraction) : Prop :=
  2 ≤ q.denominator.toInt ∧ Int.gcd q.numerator.toInt q.denominator.toInt = 1

instance (q : Fraction) : Decidable q.Canonical :=
  inferInstanceAs (Decidable (_ ∧ _))

/-- An exact integer, an exact fraction or a floating-point number. -/
inductive Number where
  | integer (n : Word)
  | fraction (q : Fraction)
  | float (x : Float)
deriving DecidableEq, Inhabited

/-- Why an operation on numbers has no result. -/
inductive ArithmeticError where
  | divisionByZero
  | overflow
  | outsideDomain
  /-- No exact integer is as large as `x`, or `x` is no finite number. -/
  | outOfRange (x : Float)
deriving DecidableEq

def ArithmeticError.message : ArithmeticError → String
  | .divisionByZero => "division by zero"
  | .overflow => "integer overflow"
  | .outsideDomain => "math domain error"
  | .outOfRange x => floatScientificText x ++ " is out of integer range"

namespace Number

/-- Whether a fraction in it is in canonical form. -/
def Canonical : Number → Prop
  | .fraction q => q.Canonical
  | .integer _ | .float _ => True

def IsExact : Number → Prop
  | .integer _ | .fraction _ => True
  | .float _ => False

instance : DecidablePred IsExact
  | .integer _ | .fraction _ => .isTrue trivial
  | .float _ => .isFalse id

/-- Numerator and denominator of an exact number. -/
def quotient? : Number → Option (Int × Int)
  | .integer n => some (n.toInt, 1)
  | .fraction q => some (q.numerator.toInt, q.denominator.toInt)
  | .float _ => none

/-- The rational number that an exact number stands for. -/
def value? (a : Number) : Option Rat :=
  a.quotient?.map fun (n, d) => (n : Rat) / (d : Rat)

/-- The nearest floating-point number; a fraction divides its two rounded parts. -/
def toFloat : Number → Float
  | .integer n => Float.ofInt n.toInt
  | .fraction q => Float.ofInt q.numerator.toInt / Float.ofInt q.denominator.toInt
  | .float x => x

/-- The same kind of number, and equal as such. -/
def alike : Number → Number → Bool
  | .integer m, .integer n => m = n
  | .fraction p, .fraction q => p = q
  | .float x, .float y => x == y
  | _, _ => false

def text : Number → String
  | .integer n => toString n.toInt
  | .fraction q => toString q.numerator.toInt ++ "/" ++ toString q.denominator.toInt
  | .float x => floatText x

def typeName : Number → String
  | .integer _ => "integer"
  | .fraction _ => "rational"
  | .float _ => "float"

end Number

end SubstLisp
