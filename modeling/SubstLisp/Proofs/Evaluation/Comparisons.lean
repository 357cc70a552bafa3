import SubstLisp.Proofs.Evaluation.BuiltinResults
import SubstLisp.Proofs.Number.Order

/-! # Comparing exact numbers

Exact numbers are ordered like the rational numbers they stand for, and the five comparing
procedures agree about how they are ordered (`SubstLisp.comparison_exact`).
-/

namespace SubstLisp

namespace ExactNumber

variable (a b : ExactNumber)

/-- A comparing procedure decides by the order of the rational numbers. -/
theorem apply_comparison {builtin : Builtin} {accepts : Ordering → Bool}
    (comparison : builtin.operation = .comparison accepts) :
    builtin.apply [a.number.argument, b.number.argument] =
      .ok (.boolean (accepts (cmp a.value b.value))) := by
  have accepted : (Operation.comparison accepts).arity.accepts [a.number, b.number].length := rfl
  have computed := Operation.apply_numbers accepted
  rw [Operation.compute, compare_number] at computed
  rw [Builtin.apply, comparison]
  exact computed

/-- What the comparing procedures answer about two numbers: the first is either less than the second
one, or equal to it, or greater. -/
structure Answers (isLess isEqual isGreater : Bool) : Prop where
  less : Builtin.less.apply [a.number.argument, b.number.argument] = .ok (.boolean isLess)
  equal : Builtin.equal.apply [a.number.argument, b.number.argument] = .ok (.boolean isEqual)
  greater : Builtin.greater.apply [a.number.argument, b.number.argument] = .ok (.boolean isGreater)
  lessOrEqual :
    Builtin.lessOrEqual.apply [a.number.argument, b.number.argument] =
      .ok (.boolean (isLess || isEqual))
  greaterOrEqual :
    Builtin.greaterOrEqual.apply [a.number.argument, b.number.argument] =
      .ok (.boolean (isGreater || isEqual))
  onlyOne : [isLess, isEqual, isGreater].count true = 1

/-- What the five comparisons answer about two exact numbers follows from their order. -/
theorem answers :
    let order := cmp a.value b.value
    Answers a b (order == .lt) (order == .eq) (order == .gt) := by
  intro order
  have answer : ∀ (builtin : Builtin) (accepts : Ordering → Bool),
      builtin.operation = .comparison accepts →
      builtin.apply [a.number.argument, b.number.argument] = .ok (.boolean (accepts order)) :=
    fun _ _ comparison => apply_comparison a b comparison
  have notGreater : ∀ order : Ordering, (order != .gt) = (order == .lt || order == .eq) := by
    rintro (_ | _ | _) <;> rfl
  have notLess : ∀ order : Ordering, (order != .lt) = (order == .gt || order == .eq) := by
    rintro (_ | _ | _) <;> rfl
  have onlyOne : ∀ order : Ordering, [order == .lt, order == .eq, order == .gt].count true = 1 := by
    rintro (_ | _ | _) <;> rfl
  refine ⟨answer .less _ rfl, answer .equal _ rfl, answer .greater _ rfl, ?_, ?_, onlyOne order⟩
  · rw [← notGreater]
    exact answer .lessOrEqual _ rfl
  · rw [← notLess]
    exact answer .greaterOrEqual _ rfl

end ExactNumber

/-- **Exact numbers are ordered like rational numbers.** They can always be compared, with words
that do not wrap around, and numbers that compare as equal are the same. So this is a linear order,
and of the procedures that ask for less, equal and greater just one says yes. -/
theorem comparison_exact :
    (∀ a b : ExactNumber,
      a.number.compare b.number = some (cmp a.value b.value) ∧
      order? a.quotient b.quotient = a.number.compare b.number ∧
      (a.number.compare b.number = some .eq ↔ a.number.alike b.number) ∧
      ∃ isLess isEqual isGreater, a.Answers b isLess isEqual isGreater) ∧
    IsLinearOrder ExactNumber ExactNumber.AtMost := by
  refine ⟨fun a b => ?_, ExactNumber.atMost_isLinearOrder⟩
  have compared := a.compare_number b
  exact ⟨compared, (a.order?_quotient b).trans compared.symm, a.compare_number_eq_iff b, _, _, _,
    a.answers b⟩

end SubstLisp
