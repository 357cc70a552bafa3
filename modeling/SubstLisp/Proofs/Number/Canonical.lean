import SubstLisp.Number.Rounding
import SubstLisp.Proofs.Number.ExactArithmetic

/-! # Operations keep canonical form

Whatever is read or computed is in canonical form again: fractions come out of `reduce` only, and
that gives canonical numbers as long as every value on the way fits a 128-bit word.
-/

namespace SubstLisp

/-- The sign of a word can be changed in a 128-bit word. -/
theorem fitsWideBothWays_of_fitsWord {n : Int} (fits : FitsWord n) : FitsWideBothWays n := by
  unfold FitsWord at fits
  unfold FitsWideBothWays FitsWide
  omega

/-- What reduction finds is in canonical form, if the sign of both parts can be changed. -/
theorem reduce_canonical {numerator denominator : Int} (top : FitsWideBothWays numerator)
    (bottom : FitsWideBothWays denominator) {a : Number}
    (reduced : reduce numerator denominator = some (.ok a)) : a.Canonical := by
  by_cases zero : denominator = 0
  · simp only [reduce, zero, ↓reduceIte] at reduced
    cases reduced
  · rw [reduce_of_reduce? (reduce?_eq_ofRat zero top bottom), Option.some.injEq] at reduced
    exact (Number.ofRat_eq_ok reduced).1

namespace Number

/-- An operation gives canonical numbers if it does on exact ones; other results are
floating-point. -/
theorem combine_canonical
    {exactly : Int × Int → Int × Int → Option (Except ArithmeticError Number)}
    {floating : Float → Float → Except ArithmeticError Float} {a b result : Number}
    (exact : ∀ p q, a.quotient? = some p → b.quotient? = some q →
      exactly p q = some (.ok result) → result.Canonical)
    (combined : combine exactly floating a b = .ok result) : result.Canonical := by
  unfold combine at combined
  split at combined
  case h_1 p q left right => exact exact p q left right (ofOutcome_eq_ok combined)
  case h_2 =>
    cases computed : floating a.toFloat b.toFloat with
    | error e =>
      rw [computed] at combined
      cases combined
    | ok x =>
      rw [computed] at combined
      cases combined
      trivial

/-- An integer result is in canonical form as such. -/
theorem integerResult_canonical {n : Int} {result : Number}
    (found : integerResult n = .ok result) : result.Canonical := by
  unfold integerResult at found
  split at found
  · cases found
    trivial
  · cases found

/-- An operation gives canonical numbers if it does on quotients; two integers need nothing else. -/
theorem onPairs_canonical {whole : Int → Int → Int}
    {exactly : Int × Int → Int × Int → Option (Except ArithmeticError Number)}
    {floating : Float → Float → Except ArithmeticError Float} {a b result : Number}
    (exact : ∀ p q, a.quotient? = some p → b.quotient? = some q →
      exactly p q = some (.ok result) → result.Canonical)
    (found : onPairs whole exactly floating a b = .ok result) : result.Canonical := by
  unfold onPairs at found
  split at found
  · exact integerResult_canonical found
  · exact combine_canonical exact found

section Operations

variable {a b result : Number} (leftCanonical : a.Canonical) (rightCanonical : b.Canonical)
include leftCanonical rightCanonical

/-- The sum of two numbers in canonical form is in canonical form. -/
theorem add_canonical (found : a.add b = .ok result) : result.Canonical := by
  rw [add_eq_onPairs] at found
  refine onPairs_canonical ?_ found
  intro p q left right sum
  rw [crossQuotients_add left right leftCanonical rightCanonical, Option.some.injEq] at sum
  exact (ofRat_eq_ok sum).1

theorem sub_canonical (found : a.sub b = .ok result) : result.Canonical := by
  rw [sub_eq_onPairs] at found
  refine onPairs_canonical ?_ found
  intro p q left right difference
  rw [crossQuotients_sub left right leftCanonical rightCanonical, Option.some.injEq] at difference
  exact (ofRat_eq_ok difference).1

theorem mul_canonical (found : a.mul b = .ok result) : result.Canonical := by
  rw [mul_eq_onPairs] at found
  refine onPairs_canonical ?_ found
  intro p q left right product
  rw [mulQuotients_eq_ofRat left right leftCanonical rightCanonical, Option.some.injEq] at product
  exact (ofRat_eq_ok product).1

/-- The quotient of two numbers in canonical form is in canonical form; a zero has none. -/
theorem div_canonical (found : a.div b = .ok result) : result.Canonical := by
  refine combine_canonical ?_ found
  rintro ⟨n, d⟩ ⟨m, e⟩ left right quotient
  by_cases zero : m = 0
  · rw [Prod.swap_prod_mk, mulQuotients_of_product?
      (checked_div_zero left right leftCanonical rightCanonical zero)] at quotient
    cases quotient
  · rw [Prod.swap_prod_mk, mulQuotients_swap left right leftCanonical rightCanonical zero,
      Option.some.injEq] at quotient
    exact (ofRat_eq_ok quotient).1

omit rightCanonical in
/-- The absolute value of a number in canonical form is in canonical form. -/
theorem abs_canonical (found : a.abs = .ok result) : result.Canonical := by
  cases a with
  | integer n =>
    have small : integerResult n.toInt.natAbs = .ok result := by rwa [abs] at found
    exact integerResult_canonical small
  | fraction q =>
    have top : FitsWideBothWays q.numerator.toInt.natAbs := by
      have fits := fitsWord_toInt q.numerator
      unfold FitsWord at fits
      unfold FitsWideBothWays FitsWide
      omega
    have bottom := fitsWideBothWays_of_fitsWord (fitsWord_toInt q.denominator)
    exact reduce_canonical top bottom (ofOutcome_eq_ok found)
  | float x =>
    cases found
    trivial

end Operations

theorem sqrt_canonical {a result : Number} (found : a.sqrt = .ok result) : result.Canonical := by
  unfold sqrt at found
  split at found
  · cases found
  · cases found
    trivial

/-- A rounded floating-point number is an integer. -/
theorem roundFloat_canonical {rounding : Rat → Int} {x : Float} {result : Number}
    (found : roundFloat rounding x = .ok result) : result.Canonical := by
  unfold roundFloat at found
  split at found
  · cases found
    trivial
  · cases found

/-- Rounding down leads to an integer. -/
theorem floor_canonical {a result : Number} (found : a.floor = .ok result) :
    result.Canonical := by
  unfold floor at found
  split at found
  · cases found
    trivial
  · cases found
    trivial
  · exact roundFloat_canonical found

theorem ceiling_canonical {a result : Number} (found : a.ceiling = .ok result) :
    result.Canonical := by
  unfold ceiling at found
  split at found
  · cases found
    trivial
  · cases found
    trivial
  · exact roundFloat_canonical found

theorem round_canonical {a result : Number} (found : a.round = .ok result) :
    result.Canonical := by
  unfold round at found
  split at found
  · cases found
    trivial
  · cases found
    trivial
  · exact roundFloat_canonical found

end Number

end SubstLisp
