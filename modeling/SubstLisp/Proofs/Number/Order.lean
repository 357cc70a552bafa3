import Mathlib.Algebra.Order.Ring.Cast
import Mathlib.Order.RelClasses
import SubstLisp.Proofs.Number.ExactNumber

/-!
# The order of exact numbers

Exact numbers compare like the rational numbers they stand for
(`SubstLisp.ExactNumber.compare_number`), so every two of them can be compared, and they are in a
linear order.  The cross products that are compared fit 128-bit words
(`SubstLisp.ExactNumber.order?_quotient`).
-/

namespace SubstLisp

/-- The order of two quotients with checked words: there is none where a product does not fit. -/
def order? (p q : Int × Int) : Option Ordering := do
  let left ← wide? (p.1 * q.2)
  let right ← wide? (q.1 * p.2)
  return compare left right

/-- With positive denominators, quotients have the order of their cross products. -/
theorem compare_products {n d m e : Int} (leftPositive : 0 < d) (rightPositive : 0 < e) :
    compare (n * e) (m * d) = cmp ((n : Rat) / d) ((m : Rat) / e) := by
  have left : (0 : Rat) < d := Int.cast_pos.mpr leftPositive
  have right : (0 : Rat) < e := Int.cast_pos.mpr rightPositive
  have leftProduct : ((n * e : Int) : Rat) = d * e * (n / d) := by
    push_cast
    field_simp
  have rightProduct : ((m * d : Int) : Rat) = d * e * (m / e) := by
    push_cast
    field_simp
  calc compare (n * e) (m * d)
      = cmp ((n * e : Int) : Rat) (m * d : Int) := by
        rw [Int.cast_strictMono.cmp_map_eq, cmp_eq_compare]
    _ = cmp ((d * e : Rat) * (n / d)) (d * e * (m / e)) := by rw [leftProduct, rightProduct]
    _ = cmp ((n : Rat) / d) (m / e) := cmp_mul_pos_left (mul_pos left right) _ _

namespace ExactNumber

/-- The two products that are compared fit, and their order is that of the rational numbers. -/
theorem order?_quotient (a b : ExactNumber) :
    order? a.quotient b.quotient = some (cmp a.value b.value) := by
  obtain ⟨leftTop, leftBottom, leftPositive⟩ := a.bounds
  obtain ⟨rightTop, rightBottom, rightPositive⟩ := b.bounds
  have products : order? a.quotient b.quotient =
      some (compare (a.quotient.1 * b.quotient.2) (b.quotient.1 * a.quotient.2)) := by
    simp only [order?, wide?_eq_some (fitsWideBothWays_mul leftTop rightBottom).1,
      wide?_eq_some (fitsWideBothWays_mul rightTop leftBottom).1, Option.bind_eq_bind,
      Option.bind_some, Option.pure_def]
  rw [products, compare_products leftPositive rightPositive]
  rfl

/-- Exact numbers compare like their values. -/
theorem compare_number (a b : ExactNumber) :
    a.number.compare b.number = some (cmp a.value b.value) := by
  obtain ⟨-, -, leftPositive⟩ := a.bounds
  obtain ⟨-, -, rightPositive⟩ := b.bounds
  rw [Number.compare, a.quotient?_number, b.quotient?_number]
  exact congrArg some (compare_products leftPositive rightPositive)

/-- Only the same exact numbers are alike. -/
theorem alike_number_iff (a b : ExactNumber) : a.number.alike b.number ↔ a = b := by
  rw [← number_injective.eq_iff]
  have leftExact := a.exact
  have rightExact := b.exact
  generalize a.number = m at leftExact
  generalize b.number = n at rightExact
  cases m with
  | float x => exact leftExact.elim
  | integer m => cases n <;> simp [Number.alike]
  | fraction p => cases n <;> simp [Number.alike]

/-- Two exact numbers compare as equal only if they are the same. -/
theorem compare_number_eq_iff (a b : ExactNumber) :
    a.number.compare b.number = some .eq ↔ a.number.alike b.number := by
  rw [compare_number, Option.some.injEq, cmp_eq_eq_iff, value_injective.eq_iff, alike_number_iff]

/-- Whether the first number compares as less than or equal to the second one. -/
def AtMost (a b : ExactNumber) : Prop :=
  a.number.compare b.number = some .lt ∨ a.number.compare b.number = some .eq

/-- An exact number is at most another one if its value is. -/
theorem atMost_iff (a b : ExactNumber) : a.AtMost b ↔ a.value ≤ b.value := by
  rw [AtMost, compare_number, Option.some.injEq, Option.some.injEq, cmp_eq_lt_iff, cmp_eq_eq_iff,
    le_iff_lt_or_eq]

/-- The comparison of exact numbers is a linear order. -/
theorem atMost_isLinearOrder : IsLinearOrder ExactNumber AtMost where
  refl a := (atMost_iff a a).mpr (le_refl _)
  trans a b c first second :=
    (atMost_iff a c).mpr (le_trans ((atMost_iff a b).mp first) ((atMost_iff b c).mp second))
  antisymm a b first second :=
    value_injective (le_antisymm ((atMost_iff a b).mp first) ((atMost_iff b a).mp second))
  total a b := by
    rw [atMost_iff, atMost_iff]
    exact le_total _ _

end ExactNumber

end SubstLisp
