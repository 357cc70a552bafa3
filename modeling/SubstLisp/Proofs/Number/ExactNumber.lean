import Mathlib.Algebra.Order.Field.Rat
import SubstLisp.Proofs.Number.Exactness

/-!
# Exact numbers in canonical form

An exact number in canonical form and the rational number it stands for determine each other
(`SubstLisp.ExactNumber.value_injective`, `SubstLisp.ExactNumber.exists_of_representable`), and the
arithmetic of the former is the arithmetic of the latter, as far as its results can be represented.
-/

namespace SubstLisp

/-- An exact number in canonical form. -/
structure ExactNumber where
  number : Number
  exact : number.IsExact
  canonical : number.Canonical

/-- Whether a rational number in lowest terms is a quotient of words. -/
def Representable (x : Rat) : Prop :=
  FitsWord x.num ∧ FitsWord x.den

instance (x : Rat) : Decidable (Representable x) :=
  inferInstanceAs (Decidable (_ ∧ _))

namespace ExactNumber

/-- Numerator and denominator. -/
def quotient (a : ExactNumber) : Int × Int :=
  a.number.quotient?.get (Option.isSome_iff_exists.mpr a.exact.exists_quotient?)

/-- An exact number has its quotient as a number too. -/
theorem quotient?_number (a : ExactNumber) : a.number.quotient? = some a.quotient :=
  (Option.some_get _).symm

/-- Both parts of an exact number fit words, and its denominator is positive. -/
theorem bounds (a : ExactNumber) :
    FitsWord a.quotient.1 ∧ FitsWord a.quotient.2 ∧ 0 < a.quotient.2 :=
  Number.quotient?_bounds a.quotient?_number a.canonical

/-- The rational number that it stands for. -/
def value (a : ExactNumber) : Rat :=
  (a.quotient.1 : Rat) / (a.quotient.2 : Rat)

/-- An exact number stands for its value. -/
theorem value?_number (a : ExactNumber) : a.number.value? = some a.value := by
  rw [Number.value?, a.quotient?_number]
  rfl

/-- An exact number is the canonical form of its value. -/
theorem ofRat_value (a : ExactNumber) : Number.ofRat a.value = .ok a.number :=
  Number.ofRat_quotient a.quotient?_number a.canonical

/-- A word is an exact number. -/
def integer (n : Int64) : ExactNumber :=
  ⟨.integer n, trivial, trivial⟩

theorem value_integer (n : Int64) : (integer n).value = n.toInt := by
  have value := (integer n).value?_number
  simp only [integer, Number.value?, Number.quotient?, Option.map_some, Int.cast_one, div_one,
    Option.some.injEq] at value
  exact value.symm

/-- Exact numbers differ as numbers. -/
theorem number_injective : Function.Injective number := by
  rintro ⟨a, _, _⟩ ⟨b, _, _⟩ same
  cases same
  rfl

/-- Exact numbers of the same value are the same: a value has one canonical form. -/
theorem value_injective : Function.Injective value := by
  intro a b same
  have found := a.ofRat_value
  rw [same, b.ofRat_value] at found
  exact number_injective (Except.ok.inj found).symm

/-- What is found as the canonical form of a rational number is an exact number. -/
theorem exists_of_ofRat {x : Rat} {number : Number} (found : Number.ofRat x = .ok number) :
    ∃ a : ExactNumber, a.number = number ∧ a.value = x := by
  obtain ⟨canonical, value⟩ := Number.ofRat_eq_ok found
  have exact : number.IsExact := by
    cases number with
    | integer n => trivial
    | fraction q => trivial
    | float x => cases value
  exact ⟨⟨number, exact, canonical⟩, rfl, Option.some.inj ((value?_number _).symm.trans value)⟩

/-- Every quotient of words is the value of an exact number. -/
theorem exists_of_representable {x : Rat} (representable : Representable x) :
    ∃ a : ExactNumber, a.value = x := by
  cases found : Number.ofRat x with
  | error e => exact absurd representable (Number.ofRat_eq_error_iff.mp found).2
  | ok number =>
    obtain ⟨a, -, value⟩ := exists_of_ofRat found
    exact ⟨a, value⟩

/-- A rational number with a part that does not fit a word leads to an overflow. -/
theorem ofRat_of_not_representable {x : Rat} (unrepresentable : ¬Representable x) :
    Number.ofRat x = .error .overflow :=
  Number.ofRat_eq_error_iff.mpr ⟨rfl, unrepresentable⟩

/-- The value of an exact number has parts that fit words. -/
theorem representable_value (a : ExactNumber) : Representable a.value := by
  by_contra unrepresentable
  have failed := ofRat_of_not_representable unrepresentable
  rw [a.ofRat_value] at failed
  cases failed

/-- The sum of exact numbers is the canonical form of the sum of their values. -/
theorem add_number (a b : ExactNumber) :
    a.number.add b.number = Number.ofRat (a.value + b.value) :=
  Number.add_eq_ofRat a.quotient?_number b.quotient?_number a.canonical b.canonical

/-- The product of exact numbers is the canonical form of the product of their values. -/
theorem mul_number (a b : ExactNumber) :
    a.number.mul b.number = Number.ofRat (a.value * b.value) :=
  Number.mul_eq_ofRat a.quotient?_number b.quotient?_number a.canonical b.canonical

end ExactNumber

end SubstLisp
