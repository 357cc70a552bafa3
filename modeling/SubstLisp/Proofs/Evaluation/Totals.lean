import Mathlib.Algebra.BigOperators.Group.List.Basic
import SubstLisp.Proofs.Evaluation.BuiltinResults
import SubstLisp.Proofs.Number.ExactNumber

/-! # Sums and products of any number of arguments

The procedures for sums and products combine their arguments from the left. Of exact arguments they
find the sum or the product that the rational numbers have, unless that of the first few arguments
cannot be represented (`SubstLisp.totals_exact`). Even if the later arguments would make up for it,
they do not get that far, so it may take another order of the arguments to have a result; but there
is only one that they can have.
-/

namespace SubstLisp

/-- Whether the totals of the first two numbers, the first three, and so on up to all of them can be
represented. -/
def TotalsFit (total : List Rat → Rat) (numbers : List ExactNumber) : Prop :=
  ∀ k, 2 ≤ k → k ≤ numbers.length → Representable (total ((numbers.take k).map (·.value)))

/-- An operation on numbers that combines exact numbers like rational numbers are combined for a
total, which can be taken from the left, and in any order. -/
structure CombinesFor (total : List Rat → Rat)
    (combine : Number → Number → Except ArithmeticError Number) : Prop where
  combined : ∀ a b : ExactNumber,
    combine a.number b.number = Number.ofRat (total [a.value, b.value])
  single : ∀ x, total [x] = x
  fromLeft : ∀ x y rest, total (x :: y :: rest) = total (total [x, y] :: rest)
  perm : ∀ {xs ys : List Rat}, xs.Perm ys → total xs = total ys

/-- With fewer than two numbers there is nothing to represent. -/
theorem TotalsFit.of_length_le_one {total : List Rat → Rat} {numbers : List ExactNumber}
    (short : numbers.length ≤ 1) : TotalsFit total numbers := by
  intro k atLeast atMost
  omega

namespace CombinesFor

theorem add : CombinesFor List.sum Number.add where
  combined a b := by rw [a.add_number b, List.sum_pair]
  single x := List.sum_singleton
  fromLeft x y rest := by simp only [List.sum_cons, List.sum_nil, add_zero, add_assoc]
  perm := List.Perm.sum_eq

theorem mul : CombinesFor List.prod Number.mul where
  combined a b := by rw [a.mul_number b, List.prod_pair]
  single x := List.prod_singleton
  fromLeft x y rest := by simp only [List.prod_cons, List.prod_nil, mul_one, mul_assoc]
  perm := List.Perm.prod_eq

variable {total : List Rat → Rat} {combine : Number → Number → Except ArithmeticError Number}
  (combines : CombinesFor total combine)

include combines

/-- A number that is the total of the first two numbers can stand for them. -/
theorem totalsFit_cons_cons_iff {a b both : ExactNumber} {rest : List ExactNumber}
    (sum : both.value = total [a.value, b.value]) :
    TotalsFit total (a :: b :: rest) ↔ TotalsFit total (both :: rest) := by
  have shorter : ∀ k, total (((a :: b :: rest).take (k + 2)).map (·.value)) =
      total (((both :: rest).take (k + 1)).map (·.value)) := by
    intro k
    simp only [List.take_succ_cons, List.map_cons, sum]
    exact combines.fromLeft _ _ _
  constructor
  · rintro fit (_ | k) atLeast atMost
    · omega
    · rw [← shorter k]
      exact fit (k + 2) (by omega) (by simpa using atMost)
  · rintro fit (_ | _ | k) atLeast atMost
    · omega
    · omega
    · rw [shorter k]
      -- The total of just the first two numbers is a number that is there already.
      cases k with
      | zero =>
        simp only [List.take_succ_cons, List.take_zero, List.map_cons, List.map_nil,
          combines.single]
        exact both.representable_value
      | succ k => exact fit (k + 2) (by omega) (by simpa using atMost)

/-- Numbers are combined up to the first total that cannot be represented. -/
theorem combineAll_exact (first : ExactNumber) (rest : List ExactNumber) :
    (TotalsFit total (first :: rest) →
      ∃ result : ExactNumber, result.value = total ((first :: rest).map (·.value)) ∧
        combineAll combine first.number (rest.map (·.number)) = .ok result.number) ∧
    (¬TotalsFit total (first :: rest) →
      combineAll combine first.number (rest.map (·.number)) = .error .overflow) := by
  induction rest generalizing first with
  | nil =>
    exact ⟨fun _ => ⟨first, (combines.single _).symm, rfl⟩,
      fun unfit => absurd (.of_length_le_one le_rfl) unfit⟩
  | cons second rest ih =>
    have combined := combines.combined first second
    simp only [List.map_cons, combineAll]
    by_cases representable : Representable (total [first.value, second.value])
    · obtain ⟨both, sum⟩ := ExactNumber.exists_of_representable representable
      rw [← sum, both.ofRat_value] at combined
      rw [combined, combines.totalsFit_cons_cons_iff sum, combines.fromLeft, ← sum]
      exact ih both
    · rw [combined, ExactNumber.ofRat_of_not_representable representable]
      refine ⟨fun fit => absurd (fit 2 le_rfl ?_) representable, fun _ => rfl⟩
      simp only [List.length_cons]
      omega

end CombinesFor

/-- A procedure finds the total of exact numbers if the totals on the way to it can be represented,
and fails otherwise. Without arguments its result is `neutral`, and a single argument is its own
total. All orders of the arguments that have a result have the same one. -/
structure Builtin.FindsTotals (builtin : Builtin) (total : List Rat → Rat) (neutral : Number) :
    Prop where
  ok : ∀ numbers, TotalsFit total numbers →
    ∃ result : ExactNumber, result.value = total (numbers.map (·.value)) ∧
      builtin.apply (numbers.map (·.number.argument)) = .ok (.number result.number)
  overflow : ∀ numbers, ¬TotalsFit total numbers →
    builtin.apply (numbers.map (·.number.argument)) = .error (.arithmetic .overflow)
  empty : builtin.apply [] = .ok (.number neutral)
  single : ∀ a : ExactNumber, builtin.apply [a.number.argument] = .ok (.number a.number)
  reordered : ∀ (numbers others : List ExactNumber) (token other : Token), numbers.Perm others →
    builtin.apply (numbers.map (·.number.argument)) = .ok token →
    builtin.apply (others.map (·.number.argument)) = .ok other → token = other

section Procedures

variable {builtin : Builtin} {total : List Rat → Rat}
  {combine : Number → Number → Except ArithmeticError Number} {neutral : ExactNumber}
  {numbers others : List ExactNumber} {token other : Token}
  (operation : builtin.operation = .fold neutral.number combine)
  (combines : CombinesFor total combine) (empty : neutral.value = total [])

include operation

/-- A procedure that combines its arguments combines exact numbers, however many. -/
theorem Builtin.apply_fold (numbers : List ExactNumber) :
    builtin.apply (numbers.map (·.number.argument)) =
      (Operation.fold neutral.number combine).compute (numbers.map (·.number)) := by
  have accepted : (Operation.fold neutral.number combine).arity.accepts
      (numbers.map (·.number)).length := by
    simp [Operation.arity, Arity.accepts]
  rw [Builtin.apply, operation, ← Operation.apply_numbers accepted, List.map_map]
  rfl

namespace CombinesFor

include combines

/-- If the total of some arguments in front cannot be represented, the call overflows. -/
theorem apply_of_not_totalsFit (unfit : ¬TotalsFit total numbers) :
    builtin.apply (numbers.map (·.number.argument)) = .error (.arithmetic .overflow) := by
  rw [Builtin.apply_fold operation]
  cases numbers with
  | nil => exact absurd (.of_length_le_one zero_le_one) unfit
  | cons first rest =>
    rw [List.map_cons, Operation.compute, (combines.combineAll_exact first rest).2 unfit]
    rfl

include empty

/-- If the totals on the way can all be represented, the call has the total of the values. -/
theorem apply_of_totalsFit (fit : TotalsFit total numbers) :
    ∃ result : ExactNumber, result.value = total (numbers.map (·.value)) ∧
      builtin.apply (numbers.map (·.number.argument)) = .ok (.number result.number) := by
  rw [Builtin.apply_fold operation]
  cases numbers with
  | nil => exact ⟨neutral, empty, rfl⟩
  | cons first rest =>
    obtain ⟨result, value, found⟩ := (combines.combineAll_exact first rest).1 fit
    refine ⟨result, value, ?_⟩
    rw [List.map_cons, Operation.compute, found]
    rfl

/-- Whatever such a procedure has as its result is the total of its arguments. -/
theorem exists_of_apply_eq_ok
    (found : builtin.apply (numbers.map (·.number.argument)) = .ok token) :
    ∃ result : ExactNumber, result.value = total (numbers.map (·.value)) ∧
      token = .number result.number := by
  by_cases fit : TotalsFit total numbers
  · obtain ⟨result, value, same⟩ := combines.apply_of_totalsFit operation empty fit
    exact ⟨result, value, Except.ok.inj (found.symm.trans same)⟩
  · rw [combines.apply_of_not_totalsFit operation fit] at found
    cases found

/-- Another order of the arguments leads to no other result. -/
theorem eq_of_perm (reordered : numbers.Perm others)
    (found : builtin.apply (numbers.map (·.number.argument)) = .ok token)
    (foundOther : builtin.apply (others.map (·.number.argument)) = .ok other) : token = other := by
  obtain ⟨a, value, rfl⟩ := combines.exists_of_apply_eq_ok operation empty found
  obtain ⟨b, valueOther, rfl⟩ := combines.exists_of_apply_eq_ok operation empty foundOther
  have same : a.value = b.value := by
    rw [value, valueOther, combines.perm (reordered.map _)]
  rw [ExactNumber.value_injective same]

/-- The builtin finds the total of its exact arguments, as far as the totals on the way fit. -/
theorem findsTotals : builtin.FindsTotals total neutral.number where
  ok _ := combines.apply_of_totalsFit operation empty
  overflow _ := combines.apply_of_not_totalsFit operation
  empty := Builtin.apply_fold operation []
  single a := Builtin.apply_fold operation [a]
  reordered _ _ _ _ := combines.eq_of_perm operation empty

end CombinesFor

end Procedures

/-- **Sums and products of exact numbers.** What adding and multiplying any number of them results
in is the sum and the product of the rational numbers they stand for; if those of the first few
numbers cannot be represented, it is an overflow. -/
theorem totals_exact :
    Builtin.add.FindsTotals List.sum (.integer 0) ∧
      Builtin.multiply.FindsTotals List.prod (.integer 1) := by
  constructor
  · have zero : (ExactNumber.integer 0).value = [].sum := by simp [ExactNumber.value_integer]
    exact CombinesFor.add.findsTotals rfl zero
  · have one : (ExactNumber.integer 1).value = [].prod := by simp [ExactNumber.value_integer]
    exact CombinesFor.mul.findsTotals rfl one

-- The sum of all three numbers could be represented, but the sum of the first two cannot.
example : Builtin.add.apply
    ([Int64.maxValue, 1, -1].map fun n => (Number.integer n).argument) =
      .error (.arithmetic .overflow) := by
  rfl

end SubstLisp
