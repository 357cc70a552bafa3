import Mathlib.Algebra.Order.Ring.Abs
import Mathlib.Data.Rat.Lemmas
import Mathlib.Tactic.FieldSimp
import Mathlib.Tactic.Linarith
import Mathlib.Tactic.Ring
import SubstLisp.Proofs.Number.Rational

/-!
# Exactness of the arithmetic of exact numbers

The four operations on exact numbers give the canonical form of the rational result, and overflow
exactly where there is none (`SubstLisp.Number.exact_arithmetic`).  On the way no value leaves the
range of 128-bit words: the same computation with every word checked (`SubstLisp.reduce?`,
`SubstLisp.crossed?`, `SubstLisp.product?`), the converted divisor included, which ends without a
result at the first value that does not fit, always has one.
-/

namespace SubstLisp

/-- Reduction with every word checked, also the common divisor. -/
def reduce? (numerator denominator : Int) : Option (Except ArithmeticError Number) :=
  if denominator = 0 then some (.error .divisionByZero)
  else do
    let sign := if denominator < 0 then -1 else 1
    let divisor ← wide? (commonDivisor numerator.natAbs denominator.natAbs)
    divideParts divisor (sign * numerator) (sign * denominator)

/-- The sum or the difference of two quotients with checked words. -/
def crossed? (combine : Int → Int → Int) (p q : Int × Int) :
    Option (Except ArithmeticError Number) := do
  let left ← wide? (p.1 * q.2)
  let right ← wide? (q.1 * p.2)
  let numerator ← wide? (combine left right)
  let denominator ← wide? (p.2 * q.2)
  reduce? numerator denominator

/-- The product of two quotients with checked words. -/
def product? (p q : Int × Int) : Option (Except ArithmeticError Number) := do
  let numerator ← wide? (p.1 * q.1)
  let denominator ← wide? (p.2 * q.2)
  reduce? numerator denominator

/-- Where reduction with every word checked has a result, reduction has it too. -/
theorem reduce_of_reduce? {numerator denominator : Int} {result : Except ArithmeticError Number}
    (found : reduce? numerator denominator = some result) :
    reduce numerator denominator = some result := by
  unfold reduce? at found
  unfold reduce
  split at found
  case isTrue zero => rwa [if_pos zero]
  case isFalse nonzero =>
    obtain ⟨divisor, divisorFits, found⟩ := Option.bind_eq_some_iff.mp found
    rwa [if_neg nonzero, wide_of_wide? divisorFits]

/-- Numerator and denominator with their signs adjusted, divided by their greatest common divisor,
are those of the quotient in lowest terms. -/
theorem tdiv_gcd_eq_num_den (numerator : Int) {denominator : Int} (nonzero : denominator ≠ 0) :
    let sign : Int := if denominator < 0 then -1 else 1
    (sign * numerator).tdiv (Int.gcd numerator denominator) =
        ((numerator : Rat) / (denominator : Rat)).num ∧
      (sign * denominator).tdiv (Int.gcd numerator denominator) =
        ((numerator : Rat) / (denominator : Rat)).den := by
  intro sign
  have signEq : sign = denominator.sign := by
    by_cases negative : denominator < 0
    · simp only [sign, negative, ↓reduceIte, Int.sign_eq_neg_one_of_neg]
    · have positive : 0 < denominator := by omega
      simp only [sign, negative, ↓reduceIte, Int.sign_eq_one_of_pos positive]
  have dividesTop : (Int.gcd numerator denominator : Int) ∣ sign * numerator :=
    Dvd.dvd.mul_left (Int.gcd_dvd_left ..) sign
  have dividesBottom : (Int.gcd numerator denominator : Int) ∣ sign * denominator :=
    Dvd.dvd.mul_left (Int.gcd_dvd_right ..) sign
  rw [Rat.intCast_div_eq_divInt, Rat.num_divInt, Rat.den_divInt,
    Int.tdiv_eq_ediv_of_dvd dividesTop, Int.tdiv_eq_ediv_of_dvd dividesBottom,
    Int.gcd_comm denominator numerator, signEq]
  simp only [nonzero, ↓reduceIte, Int.natCast_ediv, Int.sign_mul_self_eq_natAbs, and_self]

/-- Where division leaves the parts of a rational number in lowest terms, its canonical form is
found, unless a value to be divided does not fit. -/
theorem divideParts_eq_ofRat {divisor numerator denominator : Int} {x : Rat}
    (numEq : numerator.tdiv divisor = x.num) (denEq : denominator.tdiv divisor = x.den) :
    divideParts divisor numerator denominator =
      if FitsWide numerator ∧ (FitsWord x.num → FitsWide denominator) then some (Number.ofRat x)
      else none := by
  by_cases top : FitsWide numerator
  case neg => simp only [divideParts, wide?, top, ↓reduceIte, Option.bind_eq_bind, Option.bind_none,
    false_and]
  simp only [divideParts, wide?_eq_some top, Option.bind_eq_bind, Option.bind_some, numEq,
    Number.ofRat, top, true_and]
  cases numeratorWord : wordOf? x.num with
  | none =>
    have outside := wordOf?_eq_none_iff.mp numeratorWord
    simp only [outside, false_implies, ↓reduceIte]
  | some n =>
    have fits : FitsWord x.num := toInt_of_wordOf? numeratorWord ▸ fitsWord_toInt n
    by_cases bottom : FitsWide denominator
    case neg => simp only [wide?, fits, bottom, ↓reduceIte, Option.bind_none, true_implies]
    simp only [fits, true_implies, wide?_eq_some bottom, bottom, Option.bind_some, denEq,
      ↓reduceIte]
    cases wordOf? x.den <;> rfl

/-- Reduction with every word checked finds the canonical form of a quotient, unless the common
divisor does not fit or a sign cannot be changed. -/
theorem reduce?_eq_ite {numerator denominator : Int} (nonzero : denominator ≠ 0) :
    let sign : Int := if denominator < 0 then -1 else 1
    let quotient : Rat := numerator / denominator
    reduce? numerator denominator =
      if FitsWide (Int.gcd numerator denominator) ∧ FitsWide (sign * numerator) ∧
          (FitsWord quotient.num → FitsWide (sign * denominator)) then
        some (Number.ofRat quotient)
      else none := by
  intro sign quotient
  obtain ⟨numEq, denEq⟩ := tdiv_gcd_eq_num_den numerator nonzero
  simp only [reduce?, nonzero, ↓reduceIte, commonDivisor_natAbs numerator nonzero]
  by_cases divisorFits : FitsWide (Int.gcd numerator denominator)
  case neg => simp only [wide?, divisorFits, ↓reduceIte, Option.bind_eq_bind, Option.bind_none,
    false_and]
  simp only [wide?_eq_some divisorFits, Option.bind_eq_bind, Option.bind_some, divisorFits,
    true_and]
  exact divideParts_eq_ofRat numEq denEq

/-- Reduction with every word checked finds the canonical form of a quotient, if both parts fit once
their signs are adjusted. -/
theorem reduce?_eq_ofRat_of_signed {numerator denominator : Int} (nonzero : denominator ≠ 0)
    (top : FitsWide ((if denominator < 0 then -1 else 1) * numerator))
    (bottom : FitsWide ((if denominator < 0 then -1 else 1) * denominator)) :
    reduce? numerator denominator =
      some (Number.ofRat ((numerator : Rat) / (denominator : Rat))) := by
  have divisorFits : FitsWide (Int.gcd numerator denominator) := by
    have small : Int.gcd numerator denominator ≤ denominator.natAbs :=
      Int.gcd_le_natAbs_right numerator nonzero
    -- The adjusted denominator is the absolute value.
    unfold FitsWide at bottom ⊢
    split at bottom <;> omega
  rw [reduce?_eq_ite nonzero, if_pos ⟨divisorFits, top, fun _ => bottom⟩]

/-- Whether an integer and its negation both fit a 128-bit word. -/
def FitsWideBothWays (n : Int) : Prop :=
  FitsWide n ∧ FitsWide (-n)

/-- Reduction with every word checked finds the canonical form of a quotient, if the sign of both
parts can be changed. -/
theorem reduce?_eq_ofRat {numerator denominator : Int} (nonzero : denominator ≠ 0)
    (top : FitsWideBothWays numerator) (bottom : FitsWideBothWays denominator) :
    reduce? numerator denominator =
      some (Number.ofRat ((numerator : Rat) / (denominator : Rat))) := by
  have signFits : ∀ n, FitsWideBothWays n →
      FitsWide ((if denominator < 0 then -1 else 1) * n) := by
    intro n fits
    by_cases negative : denominator < 0
    · simpa only [negative, ↓reduceIte, Int.neg_mul, Int.one_mul] using fits.2
    · simpa only [negative, ↓reduceIte, Int.one_mul] using fits.1
  exact reduce?_eq_ofRat_of_signed nonzero (signFits _ top) (signFits _ bottom)

/-- The product of two words has a sign that can be changed in a 128-bit word. -/
theorem fitsWideBothWays_mul {m n : Int} (left : FitsWord m) (right : FitsWord n) :
    FitsWideBothWays (m * n) := by
  unfold FitsWord at left right
  have magnitude : |m * n| ≤ 9223372036854775808 * 9223372036854775808 := by
    rw [abs_mul]
    exact mul_le_mul (abs_le.mpr ⟨left.1, by omega⟩) (abs_le.mpr ⟨right.1, by omega⟩)
      (abs_nonneg n) (by decide)
  rw [abs_le] at magnitude
  unfold FitsWideBothWays FitsWide
  omega

/-- The product of a word and a positive word is small enough for two of its size to be added. -/
theorem abs_mul_le_of_pos {m n : Int} (left : FitsWord m) (right : FitsWord n) (positive : 0 < n) :
    |m * n| ≤ 9223372036854775808 * 9223372036854775807 := by
  unfold FitsWord at left right
  rw [abs_mul]
  exact mul_le_mul (abs_le.mpr ⟨left.1, by omega⟩) (abs_le.mpr ⟨by omega, by omega⟩)
    (abs_nonneg n) (by decide)

section Quotients

variable {n d m e : Int}

/-- Everything on the way to a sum or a difference of two quotients of words fits. -/
theorem crossed?_eq_ofRat {combine : Int → Int → Int}
    (bounded : ∀ x y : Int, |combine x y| ≤ |x| + |y|) (leftTop : FitsWord n)
    (leftBottom : FitsWord d) (leftPositive : 0 < d) (rightTop : FitsWord m)
    (rightBottom : FitsWord e) (rightPositive : 0 < e) :
    crossed? combine (n, d) (m, e) =
      some (Number.ofRat ((combine (n * e) (m * d) : Int) / (d * e : Int))) := by
  have combination : FitsWideBothWays (combine (n * e) (m * d)) := by
    have first := abs_mul_le_of_pos leftTop rightBottom rightPositive
    have second := abs_mul_le_of_pos rightTop leftBottom leftPositive
    have magnitude := (bounded (n * e) (m * d)).trans (add_le_add first second)
    rw [abs_le] at magnitude
    unfold FitsWideBothWays FitsWide
    omega
  have nonzero : d * e ≠ 0 := (Int.mul_pos leftPositive rightPositive).ne'
  simp only [crossed?, wide?_eq_some (fitsWideBothWays_mul leftTop rightBottom).1,
    wide?_eq_some (fitsWideBothWays_mul rightTop leftBottom).1, wide?_eq_some combination.1,
    wide?_eq_some (fitsWideBothWays_mul leftBottom rightBottom).1, Option.bind_eq_bind,
    Option.bind_some]
  exact reduce?_eq_ofRat nonzero combination (fitsWideBothWays_mul leftBottom rightBottom)

/-- Everything on the way to a product of two quotients of words fits. -/
theorem product?_eq_ofRat (leftTop : FitsWord n) (leftBottom : FitsWord d) (rightTop : FitsWord m)
    (rightBottom : FitsWord e) (nonzero : d * e ≠ 0) :
    product? (n, d) (m, e) = some (Number.ofRat ((n * m : Int) / (d * e : Int))) := by
  simp only [product?, wide?_eq_some (fitsWideBothWays_mul leftTop rightTop).1,
    wide?_eq_some (fitsWideBothWays_mul leftBottom rightBottom).1, Option.bind_eq_bind,
    Option.bind_some]
  exact reduce?_eq_ofRat nonzero (fitsWideBothWays_mul leftTop rightTop)
    (fitsWideBothWays_mul leftBottom rightBottom)

variable {result : Except ArithmeticError Number}

/-- With checked words or not, a sum or a difference that is found is the same. -/
theorem crossQuotients_of_crossed? {combine : Int → Int → Int}
    (found : crossed? combine (n, d) (m, e) = some result) :
    Number.crossQuotients combine (n, d) (m, e) = some result := by
  simp only [crossed?, Option.bind_eq_bind, Option.bind_eq_some_iff] at found
  obtain ⟨left, leftFits, right, rightFits, top, topFits, bottom, bottomFits, found⟩ := found
  simp only [Number.crossQuotients, leftFits, rightFits, topFits, bottomFits, Option.bind_eq_bind,
    Option.bind_some]
  exact reduce_of_reduce? found

/-- With checked words or not, a product that is found is the same. -/
theorem mulQuotients_of_product? (found : product? (n, d) (m, e) = some result) :
    Number.mulQuotients (n, d) (m, e) = some result := by
  simp only [product?, Option.bind_eq_bind, Option.bind_eq_some_iff] at found
  obtain ⟨top, topFits, bottom, bottomFits, found⟩ := found
  simp only [Number.mulQuotients, topFits, bottomFits, Option.bind_eq_bind, Option.bind_some]
  exact reduce_of_reduce? found

end Quotients

namespace Number

/-- The canonical form of an integer is the integer itself. -/
theorem ofRat_intCast (n : Int) : ofRat n = integerResult n := by
  have one : wordOf? 1 = some 1 := by decide
  unfold ofRat integerResult
  cases fits : wordOf? n <;> simp [fits, one]

section Operations

variable {a b : Number} {n d m e : Int}

/-- Operate on two integers as such, and on any other pair of numbers as `combine` does. -/
def onPairs (whole : Int → Int → Int)
    (exactly : Int × Int → Int × Int → Option (Except ArithmeticError Number))
    (floating : Float → Float → Except ArithmeticError Float) :
    Number → Number → Except ArithmeticError Number
  | .integer m, .integer n => integerResult (whole m.toInt n.toInt)
  | a, b => combine exactly floating a b

/-- Addition treats two integers apart. -/
theorem add_eq_onPairs (a b : Number) :
    a.add b = onPairs (· + ·) (crossQuotients (· + ·)) (fun x y => .ok (x + y)) a b := by
  cases a <;> cases b <;> rfl

theorem sub_eq_onPairs (a b : Number) :
    a.sub b = onPairs (· - ·) (crossQuotients (· - ·)) (fun x y => .ok (x - y)) a b := by
  cases a <;> cases b <;> rfl

theorem mul_eq_onPairs (a b : Number) :
    a.mul b = onPairs (· * ·) mulQuotients (fun x y => .ok (x * y)) a b := by
  cases a <;> cases b <;> rfl

/-- The two ways to operate on exact numbers lead to the same canonical form. -/
theorem onPairs_eq_ofRat {whole : Int → Int → Int}
    {exactly : Int × Int → Int × Int → Option (Except ArithmeticError Number)}
    {floating : Float → Float → Except ArithmeticError Float} {x : Rat}
    (left : a.quotient? = some (n, d)) (right : b.quotient? = some (m, e))
    (quotients : exactly (n, d) (m, e) = some (ofRat x))
    (integers : d = 1 → e = 1 → x = (whole n m : Int)) :
    onPairs whole exactly floating a b = ofRat x := by
  unfold onPairs
  split
  · cases left
    cases right
    rw [integers rfl rfl, ofRat_intCast]
  · simp only [combine, left, right, quotients, ofOutcome, Option.getD_some]

/-- Two fractions over a common denominator. -/
theorem quotient_add_quotient (leftPositive : 0 < d) (rightPositive : 0 < e) :
    ((n * e + m * d : Int) : Rat) / (d * e : Int) = n / d + m / e := by
  have left : (d : Rat) ≠ 0 := by exact_mod_cast leftPositive.ne'
  have right : (e : Rat) ≠ 0 := by exact_mod_cast rightPositive.ne'
  push_cast
  field_simp

theorem quotient_sub_quotient (leftPositive : 0 < d) (rightPositive : 0 < e) :
    ((n * e - m * d : Int) : Rat) / (d * e : Int) = n / d - m / e := by
  have left : (d : Rat) ≠ 0 := by exact_mod_cast leftPositive.ne'
  have right : (e : Rat) ≠ 0 := by exact_mod_cast rightPositive.ne'
  push_cast
  field_simp

variable (left : a.quotient? = some (n, d)) (right : b.quotient? = some (m, e))
  (leftCanonical : a.Canonical) (rightCanonical : b.Canonical)
include left right leftCanonical rightCanonical

/-- The sum is found with every word checked. -/
theorem checked_add :
    crossed? (· + ·) (n, d) (m, e) = some (ofRat (n / d + m / e)) := by
  obtain ⟨leftTop, leftBottom, leftPositive⟩ := quotient?_bounds left leftCanonical
  obtain ⟨rightTop, rightBottom, rightPositive⟩ := quotient?_bounds right rightCanonical
  rw [crossed?_eq_ofRat abs_add_le leftTop leftBottom leftPositive rightTop rightBottom
      rightPositive,
    quotient_add_quotient leftPositive rightPositive]

theorem checked_sub :
    crossed? (· - ·) (n, d) (m, e) = some (ofRat (n / d - m / e)) := by
  obtain ⟨leftTop, leftBottom, leftPositive⟩ := quotient?_bounds left leftCanonical
  obtain ⟨rightTop, rightBottom, rightPositive⟩ := quotient?_bounds right rightCanonical
  rw [crossed?_eq_ofRat abs_sub leftTop leftBottom leftPositive rightTop rightBottom rightPositive,
    quotient_sub_quotient leftPositive rightPositive]

/-- The product is found with every word checked. -/
theorem checked_mul : product? (n, d) (m, e) = some (ofRat (n / d * (m / e))) := by
  obtain ⟨leftTop, leftBottom, leftPositive⟩ := quotient?_bounds left leftCanonical
  obtain ⟨rightTop, rightBottom, rightPositive⟩ := quotient?_bounds right rightCanonical
  rw [product?_eq_ofRat leftTop leftBottom rightTop rightBottom
    (Int.mul_pos leftPositive rightPositive).ne', div_mul_div_comm]
  push_cast
  rfl

/-- The quotient is found with every word checked, unless the divisor is zero. -/
theorem checked_div (nonzero : m ≠ 0) :
    product? (n, d) (e, m) = some (ofRat (n / d / (m / e))) := by
  obtain ⟨leftTop, leftBottom, leftPositive⟩ := quotient?_bounds left leftCanonical
  obtain ⟨rightTop, rightBottom, -⟩ := quotient?_bounds right rightCanonical
  rw [product?_eq_ofRat leftTop leftBottom rightBottom rightTop
    (Int.mul_ne_zero leftPositive.ne' nonzero), div_div_div_eq]
  push_cast
  rfl

/-- Addition of quotients is not aborted, and finds the canonical form of the sum. -/
theorem crossQuotients_add : crossQuotients (· + ·) (n, d) (m, e) = some (ofRat (n / d + m / e)) :=
  crossQuotients_of_crossed? (checked_add left right leftCanonical rightCanonical)

theorem crossQuotients_sub : crossQuotients (· - ·) (n, d) (m, e) = some (ofRat (n / d - m / e)) :=
  crossQuotients_of_crossed? (checked_sub left right leftCanonical rightCanonical)

/-- Multiplication of quotients is not aborted, and finds the canonical form of the product. -/
theorem mulQuotients_eq_ofRat : mulQuotients (n, d) (m, e) = some (ofRat (n / d * (m / e))) :=
  mulQuotients_of_product? (checked_mul left right leftCanonical rightCanonical)

/-- Multiplication by the swapped quotient is division. -/
theorem mulQuotients_swap (nonzero : m ≠ 0) :
    mulQuotients (n, d) (e, m) = some (ofRat (n / d / (m / e))) :=
  mulQuotients_of_product? (checked_div left right leftCanonical rightCanonical nonzero)

/-- A sum is the canonical form of the rational sum, also that of two integers. -/
theorem add_eq_ofRat : a.add b = ofRat (n / d + m / e) := by
  rw [add_eq_onPairs]
  refine onPairs_eq_ofRat left right ?_ ?_
  · exact crossQuotients_add left right leftCanonical rightCanonical
  · intro leftWhole rightWhole
    rw [leftWhole, rightWhole]
    push_cast
    rw [div_one, div_one]

theorem sub_eq_ofRat : a.sub b = ofRat (n / d - m / e) := by
  rw [sub_eq_onPairs]
  refine onPairs_eq_ofRat left right ?_ ?_
  · exact crossQuotients_sub left right leftCanonical rightCanonical
  · intro leftWhole rightWhole
    rw [leftWhole, rightWhole]
    push_cast
    rw [div_one, div_one]

theorem mul_eq_ofRat : a.mul b = ofRat (n / d * (m / e)) := by
  rw [mul_eq_onPairs]
  refine onPairs_eq_ofRat left right ?_ ?_
  · exact mulQuotients_eq_ofRat left right leftCanonical rightCanonical
  · intro leftWhole rightWhole
    rw [leftWhole, rightWhole]
    push_cast
    rw [div_one, div_one]

/-- A quotient is the canonical form of the rational quotient, if the divisor is not zero. -/
theorem div_eq_ofRat (nonzero : m ≠ 0) : a.div b = ofRat (n / d / (m / e)) := by
  have quotient := mulQuotients_swap left right leftCanonical rightCanonical nonzero
  simp only [div, combine, left, right, Prod.swap_prod_mk, quotient, ofOutcome, Option.getD_some]

/-- A zero divisor is found with every word checked. -/
theorem checked_div_zero (zero : m = 0) :
    product? (n, d) (e, m) = some (.error .divisionByZero) := by
  have top : FitsWide (n * e) :=
    (fitsWideBothWays_mul (quotient?_bounds left leftCanonical).1
      (quotient?_bounds right rightCanonical).2.1).1
  have bottom : wide? (d * m) = some 0 := by
    rw [zero, Int.mul_zero]
    exact wide?_eq_some (by decide)
  simp only [product?, wide?_eq_some top, bottom, Option.bind_eq_bind, Option.bind_some, reduce?,
    ↓reduceIte]

/-- A zero divides no exact number. -/
theorem div_eq_divisionByZero (zero : m = 0) : a.div b = .error .divisionByZero := by
  have quotient :=
    mulQuotients_of_product? (checked_div_zero left right leftCanonical rightCanonical zero)
  simp only [div, combine, left, right, Prod.swap_prod_mk, quotient, ofOutcome, Option.getD_some]

/-- Nothing but a zero is no divisor. -/
theorem div_eq_divisionByZero_iff : a.div b = .error .divisionByZero ↔ m = 0 := by
  constructor
  · intro failed
    by_contra nonzero
    rw [div_eq_ofRat left right leftCanonical rightCanonical nonzero, ofRat_eq_error_iff] at failed
    cases failed.1
  · exact div_eq_divisionByZero left right leftCanonical rightCanonical

end Operations

/-- Sums, differences, products and quotients of exact numbers are the canonical forms of the
rational results, with an overflow where there is none, and nothing but a zero is no divisor.  The
same computations with every word checked all have these results, so that no intermediate value
leaves the range of 128-bit words. -/
theorem exact_arithmetic {a b : Number} {n d m e : Int} (left : a.quotient? = some (n, d))
    (right : b.quotient? = some (m, e)) (leftCanonical : a.Canonical)
    (rightCanonical : b.Canonical) :
    ExactResult (n / d + m / e) (a.add b) ∧
    ExactResult (n / d - m / e) (a.sub b) ∧
    ExactResult (n / d * (m / e)) (a.mul b) ∧
    (m ≠ 0 → ExactResult (n / d / (m / e)) (a.div b)) ∧
    (a.div b = .error .divisionByZero ↔ m = 0) ∧
    crossed? (· + ·) (n, d) (m, e) = some (a.add b) ∧
    crossed? (· - ·) (n, d) (m, e) = some (a.sub b) ∧
    product? (n, d) (m, e) = some (a.mul b) ∧
    product? (n, d) (e, m) = some (a.div b) := by
  have sum := add_eq_ofRat left right leftCanonical rightCanonical
  have difference := sub_eq_ofRat left right leftCanonical rightCanonical
  have product := mul_eq_ofRat left right leftCanonical rightCanonical
  have division := div_eq_divisionByZero_iff left right leftCanonical rightCanonical
  have checkedSum := checked_add left right leftCanonical rightCanonical
  have checkedDifference := checked_sub left right leftCanonical rightCanonical
  have checkedProduct := checked_mul left right leftCanonical rightCanonical
  refine ⟨sum ▸ exactResult_ofRat _, difference ▸ exactResult_ofRat _,
    product ▸ exactResult_ofRat _, ?_, division, sum ▸ checkedSum,
    difference ▸ checkedDifference, product ▸ checkedProduct, ?_⟩
  · intro nonzero
    rw [div_eq_ofRat left right leftCanonical rightCanonical nonzero]
    exact exactResult_ofRat _
  · by_cases zero : m = 0
    · rw [division.mpr zero]
      exact checked_div_zero left right leftCanonical rightCanonical zero
    · rw [div_eq_ofRat left right leftCanonical rightCanonical zero]
      exact checked_div left right leftCanonical rightCanonical zero

/-- The least integer and a fraction with the largest denominator. -/
theorem exact_arithmetic_at_the_bounds :
    let least : Number := .integer (-9223372036854775808)
    let finest : Number := .fraction ⟨-5, 9223372036854775807⟩
    least.quotient? = some (-9223372036854775808, 1) ∧
    finest.quotient? = some (-5, 9223372036854775807) ∧
    least.Canonical ∧ finest.Canonical ∧ (-5 : Int) ≠ 0 ∧
    ExactResult ((-9223372036854775808 : Int) / (1 : Int) + (-5 : Int) / (9223372036854775807 : Int))
      (least.add finest) ∧
    ExactResult
      ((-9223372036854775808 : Int) / (1 : Int) / ((-5 : Int) / (9223372036854775807 : Int)))
      (least.div finest) ∧
    crossed? (· + ·) (-9223372036854775808, 1) (-5, 9223372036854775807) =
      some (least.add finest) := by
  intro least finest
  have first : least.quotient? = some (-9223372036854775808, 1) := by decide
  have second : finest.quotient? = some (-5, 9223372036854775807) := by decide
  have canonical : finest.Canonical := by
    show Fraction.Canonical _
    decide
  have nonzero : (-5 : Int) ≠ 0 := by decide
  obtain ⟨sum, -, -, quotient, -, checked, -⟩ := exact_arithmetic first second trivial canonical
  exact ⟨first, second, trivial, canonical, nonzero, sum, quotient nonzero, checked⟩

end Number

end SubstLisp
