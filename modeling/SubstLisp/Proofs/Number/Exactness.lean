import SubstLisp.Number.Rounding
import SubstLisp.Proofs.Number.ExactArithmetic

/-! # Exact operands stay exact

Every operation but the square root turns exact numbers into exact numbers. Where it has no exact
result it fails, because a divisor is zero or because the result does not fit, and it never falls
back on a floating-point number.
-/

namespace SubstLisp

/-- The causes for which an operation on exact numbers may fail. -/
def ArithmeticError.IsExact : ArithmeticError → Prop
  | .divisionByZero | .overflow => True
  | .outsideDomain | .outOfRange _ => False

/-- An exact number, or a failure that exact numbers can lead to. -/
inductive StaysExact : Except ArithmeticError Number → Prop where
  | ok {a : Number} (exact : a.IsExact) : StaysExact (.ok a)
  | error {cause : ArithmeticError} (exact : cause.IsExact) : StaysExact (.error cause)

/-- A number that stays exact is exact. -/
theorem StaysExact.result {a : Number} (stays : StaysExact (.ok a)) : a.IsExact := by
  cases stays with
  | ok exact => exact exact

theorem StaysExact.cause {cause : ArithmeticError} (stays : StaysExact (.error cause)) :
    cause.IsExact := by
  cases stays with
  | error exact => exact exact

/-- Division of both parts leads to an integer, a fraction or an overflow. -/
theorem divideParts_staysExact {divisor numerator denominator : Int}
    {result : Except ArithmeticError Number}
    (found : divideParts divisor numerator denominator = some result) : StaysExact result := by
  simp only [divideParts, Option.bind_eq_bind, Option.bind_eq_some_iff] at found
  obtain ⟨top, -, found⟩ := found
  split at found
  case h_1 =>
    cases found
    exact .error trivial
  case h_2 n _ =>
    obtain ⟨bottom, -, found⟩ := Option.bind_eq_some_iff.mp found
    split at found
    case h_1 =>
      cases found
      exact .error trivial
    case h_2 d _ =>
      cases found
      refine .ok ?_
      split <;> trivial

/-- Reduction has an exact result or finds a zero denominator or an overflow. -/
theorem reduce_staysExact {numerator denominator : Int} {result : Except ArithmeticError Number}
    (found : reduce numerator denominator = some result) : StaysExact result := by
  unfold reduce at found
  split at found
  · cases found
    exact .error trivial
  · exact divideParts_staysExact found

theorem integerResult_staysExact (n : Int) : StaysExact (integerResult n) := by
  unfold integerResult
  split
  · exact .ok trivial
  · exact .error trivial

namespace Number

/-- A computation stays exact if its result does; the overflow for an aborted one is no float
either. -/
theorem ofOutcome_staysExact {outcome : Option (Except ArithmeticError Number)}
    (exact : ∀ result, outcome = some result → StaysExact result) :
    StaysExact (ofOutcome outcome) := by
  cases outcome with
  | none => exact .error trivial
  | some result => exact exact result rfl

theorem crossQuotients_staysExact {combine : Int → Int → Int} {p q : Int × Int}
    {result : Except ArithmeticError Number} (found : crossQuotients combine p q = some result) :
    StaysExact result := by
  simp only [crossQuotients, Option.bind_eq_bind, Option.bind_eq_some_iff] at found
  obtain ⟨_, -, _, -, _, -, _, -, reduced⟩ := found
  exact reduce_staysExact reduced

theorem mulQuotients_staysExact {p q : Int × Int} {result : Except ArithmeticError Number}
    (found : mulQuotients p q = some result) : StaysExact result := by
  simp only [mulQuotients, Option.bind_eq_bind, Option.bind_eq_some_iff] at found
  obtain ⟨_, -, _, -, reduced⟩ := found
  exact reduce_staysExact reduced

/-- An exact number is a quotient. -/
theorem IsExact.exists_quotient? {a : Number} (exact : a.IsExact) : ∃ p, a.quotient? = some p := by
  cases a with
  | integer n => exact ⟨_, rfl⟩
  | fraction q => exact ⟨_, rfl⟩
  | float x => exact exact.elim

section Pairs

variable {exactly : Int × Int → Int × Int → Option (Except ArithmeticError Number)}
  {floating : Float → Float → Except ArithmeticError Float}
  (quotients : ∀ p q result, exactly p q = some result → StaysExact result) {a b : Number}
  (left : a.IsExact) (right : b.IsExact)
include quotients left right

/-- On exact numbers, an operation never falls back on floating-point numbers. -/
theorem combine_staysExact : StaysExact (combine exactly floating a b) := by
  obtain ⟨p, isLeft⟩ := left.exists_quotient?
  obtain ⟨q, isRight⟩ := right.exists_quotient?
  simp only [combine, isLeft, isRight]
  exact ofOutcome_staysExact (quotients p q)

/-- On two integers or on other exact numbers, an operation stays exact. -/
theorem onPairs_staysExact {whole : Int → Int → Int} :
    StaysExact (onPairs whole exactly floating a b) := by
  unfold onPairs
  split
  · exact integerResult_staysExact _
  · exact combine_staysExact quotients left right

end Pairs

section Operations

variable {a b : Number} (left : a.IsExact) (right : b.IsExact)
include left right

/-- The sum of exact numbers is exact, if there is one. -/
theorem add_staysExact : StaysExact (a.add b) := by
  rw [add_eq_onPairs]
  exact onPairs_staysExact (fun _ _ _ => crossQuotients_staysExact) left right

theorem sub_staysExact : StaysExact (a.sub b) := by
  rw [sub_eq_onPairs]
  exact onPairs_staysExact (fun _ _ _ => crossQuotients_staysExact) left right

theorem mul_staysExact : StaysExact (a.mul b) := by
  rw [mul_eq_onPairs]
  exact onPairs_staysExact (fun _ _ _ => mulQuotients_staysExact) left right

/-- The quotient of exact numbers is exact, also that of two integers. -/
theorem div_staysExact : StaysExact (a.div b) :=
  combine_staysExact (fun _ _ _ => mulQuotients_staysExact) left right

end Operations

section Operations

variable {a : Number} (exact : a.IsExact)
include exact

theorem abs_staysExact : StaysExact a.abs := by
  cases a with
  | integer n =>
    rw [abs]
    exact integerResult_staysExact _
  | fraction q =>
    rw [abs]
    exact ofOutcome_staysExact fun _ => reduce_staysExact
  | float x => exact exact.elim

/-- Rounding keeps an exact number exact and does not fail, whichever way is taken. -/
theorem floor_staysExact : StaysExact a.floor := by
  cases a with
  | integer n => exact .ok trivial
  | fraction q => exact .ok trivial
  | float x => exact exact.elim

theorem ceiling_staysExact : StaysExact a.ceiling := by
  cases a with
  | integer n => exact .ok trivial
  | fraction q => exact .ok trivial
  | float x => exact exact.elim

theorem round_staysExact : StaysExact a.round := by
  cases a with
  | integer n => exact .ok trivial
  | fraction q => exact .ok trivial
  | float x => exact exact.elim

end Operations

end Number

end SubstLisp
