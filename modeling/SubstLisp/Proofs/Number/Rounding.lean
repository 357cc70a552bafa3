import Mathlib.Algebra.Order.Field.Basic
import Mathlib.Order.Bounds.Defs
import SubstLisp.Number.Rounding
import SubstLisp.Proofs.Number.Order

/-!
# Rounding of fractions

A fraction in canonical form lies strictly between two neighbouring integers, the floor and the
ceiling, and is rounded to the nearer one of them, or to the even one if both are equally near
(`SubstLisp.Fraction.rounding_exact`).  Both are words, and so is everything on the way: the same
computations with checked words always have a result.
-/

namespace SubstLisp

/-- No integer is nearer to `x` than `n`, and only an even `n` may have another one as near. -/
structure NearestToEven (x : Rat) (n : Int) : Prop where
  nearest : ∀ k : Int, |x - n| ≤ |x - k|
  even : ∀ k : Int, k ≠ n → |x - k| = |x - n| → Even n

/-- An integer less than one half away is the nearest one, and so is one just as far. -/
theorem NearestToEven.of_error {x : Rat} {n : Int} (error : |x - n| ≤ 1 / 2)
    (tie : |x - n| = 1 / 2 → Even n) : NearestToEven x n := by
  -- Any other integer is at least one away from `n`.
  have other : ∀ k : Int, k ≠ n → 1 ≤ |x - n| + |x - k| := by
    intro k different
    have apart : (1 : Rat) ≤ |(n : Rat) - k| := by
      have positive : 1 ≤ |n - k| := Int.one_le_abs (sub_ne_zero.mpr different.symm)
      exact_mod_cast positive
    have triangle := abs_sub_le (n : Rat) x k
    rw [abs_sub_comm (n : Rat) x] at triangle
    linarith
  refine ⟨fun k => ?_, fun k different same => tie ?_⟩
  · by_cases different : k = n
    · rw [different]
    · linarith [other k different]
  · linarith [other k different]

/-- Division with remainder, in rational numbers. -/
theorem quotient_eq_ediv_add {n d : Int} (positive : 0 < d) :
    (n : Rat) / d = (n / d : Int) + (n % d : Int) / d := by
  have nonzero : (d : Rat) ≠ 0 := by exact_mod_cast positive.ne'
  have split : (n : Rat) = d * (n / d : Int) + (n % d : Int) := by
    exact_mod_cast (Int.mul_ediv_add_emod n d).symm
  rw [div_eq_iff nonzero, add_mul, div_mul_cancel₀ _ nonzero, mul_comm _ (d : Rat)]
  exact split

/-- The nearest integer is one of the two neighbours. -/
theorem nearestInteger_eq_or (n d : Int) :
    nearestInteger n d = n / d ∨ nearestInteger n d = n / d + 1 := by
  unfold nearestInteger
  dsimp only
  split
  · exact .inl rfl
  · split
    · exact .inl rfl
    · exact .inr rfl
  · exact .inr rfl

/-- The remainder is a proper part of the divisor. -/
theorem emod_div_bounds {n d : Int} (positive : 0 < d) :
    (0 : Rat) ≤ (n % d : Int) / d ∧ ((n % d : Int) : Rat) / d < 1 := by
  have divisor : (0 : Rat) < d := by exact_mod_cast positive
  have rest : (0 : Rat) ≤ (n % d : Int) := by exact_mod_cast Int.emod_nonneg n positive.ne'
  have small : ((n % d : Int) : Rat) < d := by exact_mod_cast Int.emod_lt_of_pos n positive
  exact ⟨div_nonneg rest divisor.le, (div_lt_one divisor).mpr small⟩

/-- How far a quotient is from its two neighbours. -/
theorem distances {n d : Int} (positive : 0 < d) :
    |(n : Rat) / d - (n / d : Int)| = (n % d : Int) / d ∧
      |(n : Rat) / d - (n / d + 1 : Int)| = 1 - (n % d : Int) / d := by
  obtain ⟨rest, small⟩ := emod_div_bounds (n := n) positive
  rw [quotient_eq_ediv_add positive]
  constructor
  · rw [add_sub_cancel_left, abs_of_nonneg rest]
  · rw [Int.cast_add, Int.cast_one, add_sub_add_left_eq_sub, abs_sub_comm,
      abs_of_nonneg (by linarith)]

/-- The integer that is chosen by the doubled remainder is the nearest one, and the even one
of two. -/
theorem nearestToEven_nearestInteger {n d : Int} (positive : 0 < d) :
    NearestToEven ((n : Rat) / d) (nearestInteger n d) := by
  obtain ⟨below, above⟩ := distances (n := n) positive
  have order : compare (2 * (n % d)) d = cmp (((n % d : Int) : Rat) / d) (1 / 2) := by
    have crossed := compare_products (n := n % d) (m := 1) positive two_pos
    rwa [mul_comm, one_mul, Int.cast_one, Int.cast_ofNat] at crossed
  unfold nearestInteger
  rw [order]
  dsimp only
  split
  case h_1 less =>
    have half := (cmp_eq_lt_iff _ _).mp less
    exact .of_error (below.trans_le half.le) fun tie => absurd (below.symm.trans tie) half.ne
  case h_2 equal =>
    have half := (cmp_eq_eq_iff _ _).mp equal
    by_cases even : n / d % 2 = 0
    · simp only [even, ↓reduceIte]
      exact .of_error (below.trans half).le fun _ => Int.even_iff.mpr even
    · simp only [even, ↓reduceIte]
      exact .of_error (above.trans_le (by linarith)) fun _ => Int.even_iff.mpr (by omega)
  case h_3 greater =>
    have half := (cmp_eq_gt_iff _ _).mp greater
    exact .of_error (above.trans_le (by linarith)) fun tie => by linarith [above.symm.trans tie]

/-- The signed 64-bit word with a given value, if there is one. -/
def word? (n : Int) : Option Int :=
  if FitsWord n then some n else none

/-- A value that fits a word passes the check. -/
theorem word?_eq_some {n : Int} (fits : FitsWord n) : word? n = some n := by
  simp only [word?, fits, ↓reduceIte]

namespace Fraction

/-- The floor of a fraction with checked words. -/
def floor? (q : Fraction) : Option Int :=
  word? (q.numerator.toInt / q.denominator.toInt)

/-- The ceiling of a fraction with checked words. -/
def ceiling? (q : Fraction) : Option Int := do
  let below ← q.floor?
  word? (below + 1)

/-- Rounding with checked words.  Twice the remainder is a 128-bit word. -/
def round? (q : Fraction) : Option Int := do
  let below ← q.floor?
  let rest ← word? (q.numerator.toInt % q.denominator.toInt)
  let twice ← wide? (2 * rest)
  match compare twice q.denominator.toInt with
  | .lt => some below
  | .eq => if below % 2 = 0 then some below else word? (below + 1)
  | .gt => word? (below + 1)

/-- The rational number that a fraction stands for. -/
def value (q : Fraction) : Rat :=
  (q.numerator.toInt : Rat) / q.denominator.toInt

section Canonical

variable {q : Fraction} (canonical : q.Canonical)
include canonical

/-- Halving at least leaves room above the floor. -/
theorem floor_bounds : -4611686018427387904 ≤ q.floor ∧ q.floor < 4611686018427387904 := by
  obtain ⟨atLeastTwo, -⟩ := canonical
  have positive : 0 < q.denominator.toInt := by omega
  obtain ⟨low, high⟩ := fitsWord_toInt q.numerator
  exact ⟨Int.le_ediv_of_mul_le positive (by omega), Int.ediv_lt_of_lt_mul positive (by omega)⟩

/-- A fraction in lowest terms is no integer. -/
theorem rest_pos : 0 < q.numerator.toInt % q.denominator.toInt := by
  obtain ⟨atLeastTwo, coprime⟩ := canonical
  refine lt_of_le_of_ne (Int.emod_nonneg _ (by omega)) fun zero => ?_
  have divides : q.denominator.toInt ∣ q.numerator.toInt := Int.dvd_of_emod_eq_zero zero.symm
  have whole := Int.gcd_eq_right_iff_dvd (by omega) |>.mpr divides
  omega

/-- A fraction lies strictly between its floor and its ceiling. -/
theorem between : (q.floor : Rat) < q.value ∧ q.value < (q.ceiling : Int) := by
  have positive : 0 < q.denominator.toInt := by
    have atLeastTwo := canonical.1
    omega
  have divisor : (0 : Rat) < q.denominator.toInt := by exact_mod_cast positive
  have rest : (0 : Rat) < (q.numerator.toInt % q.denominator.toInt : Int) := by
    exact_mod_cast rest_pos canonical
  obtain ⟨-, small⟩ := emod_div_bounds (n := q.numerator.toInt) positive
  rw [value, quotient_eq_ediv_add positive, ceiling, floor, Int.cast_add, Int.cast_one]
  exact ⟨lt_add_of_pos_right _ (div_pos rest divisor), add_lt_add_right small _⟩

/-- The floor is the greatest integer below a fraction. -/
theorem isGreatest_floor : IsGreatest {k : Int | (k : Rat) < q.value} q.floor := by
  obtain ⟨above, below⟩ := between canonical
  refine ⟨above, fun k smaller => Int.lt_add_one_iff.mp ?_⟩
  exact_mod_cast lt_trans smaller below

/-- The ceiling is the least integer above a fraction. -/
theorem isLeast_ceiling : IsLeast {k : Int | q.value < (k : Rat)} q.ceiling := by
  obtain ⟨above, below⟩ := between canonical
  refine ⟨below, fun k greater => Int.add_one_le_iff.mpr ?_⟩
  exact_mod_cast lt_trans above greater

omit canonical in
/-- A fraction is rounded to its floor or to its ceiling. -/
theorem round_bounds : q.floor ≤ q.round ∧ q.round ≤ q.ceiling := by
  have neighbour : q.round = q.floor ∨ q.round = q.floor + 1 := nearestInteger_eq_or _ _
  have above : q.ceiling = q.floor + 1 := rfl
  omega

/-! ### Words on the way -/

/-- The floor of a fraction needs no more than half the range of words. -/
theorem fitsWord_floor : FitsWord q.floor := by
  have bounds := floor_bounds canonical
  exact ⟨by omega, by omega⟩

/-- There is always a word above the floor. -/
theorem fitsWord_ceiling : FitsWord q.ceiling := by
  have bounds := floor_bounds canonical
  have above : q.ceiling = q.floor + 1 := rfl
  exact ⟨by omega, by omega⟩

/-- A fraction is rounded to a word. -/
theorem fitsWord_round : FitsWord q.round := by
  obtain ⟨low, -⟩ := fitsWord_floor canonical
  obtain ⟨-, high⟩ := fitsWord_ceiling canonical
  obtain ⟨above, below⟩ := @round_bounds q
  exact ⟨low.trans above, below.trans_lt high⟩

/-- The floor is found with checked words. -/
theorem floor?_eq : q.floor? = some q.floor :=
  word?_eq_some (fitsWord_floor canonical)

/-- The ceiling is found with checked words, since the floor has a successor. -/
theorem ceiling?_eq : q.ceiling? = some q.ceiling := by
  rw [ceiling?, floor?_eq canonical]
  exact word?_eq_some (fitsWord_ceiling canonical)

/-- The nearest integer is found with checked words, the doubled remainder included. -/
theorem round?_eq : q.round? = some q.round := by
  have rest := rest_pos canonical
  have small : q.numerator.toInt % q.denominator.toInt < q.denominator.toInt := by
    have atLeastTwo := canonical.1
    exact Int.emod_lt_of_pos _ (by omega)
  obtain ⟨-, high⟩ := fitsWord_toInt q.denominator
  have restFits : FitsWord (q.numerator.toInt % q.denominator.toInt) := ⟨by omega, by omega⟩
  have twiceFits : FitsWide (2 * (q.numerator.toInt % q.denominator.toInt)) :=
    ⟨by omega, by omega⟩
  simp only [round?, floor?_eq canonical, word?_eq_some restFits, wide?_eq_some twiceFits,
    Option.bind_eq_bind, Option.bind_some]
  have above : word? (q.floor + 1) = some (q.floor + 1) :=
    word?_eq_some (fitsWord_ceiling canonical)
  rw [above, round, nearestInteger, ← floor]
  generalize compare (2 * (q.numerator.toInt % q.denominator.toInt)) q.denominator.toInt = order
  cases order with
  | lt => rfl
  | eq => exact (apply_ite some _ _ _).symm
  | gt => rfl

/-- The three integers between which a fraction lies and to which it is rounded. -/
structure RoundsTo (q : Fraction) (floor ceiling round : Word) : Prop where
  results : (Number.fraction q).floor = .ok (.integer floor) ∧
    (Number.fraction q).ceiling = .ok (.integer ceiling) ∧
    (Number.fraction q).round = .ok (.integer round)
  /-- No word on the way to them wraps around. -/
  checked : q.floor? = some floor.toInt ∧ q.ceiling? = some ceiling.toInt ∧
    q.round? = some round.toInt
  below : IsGreatest {k : Int | (k : Rat) < q.value} floor.toInt
  above : IsLeast {k : Int | q.value < (k : Rat)} ceiling.toInt
  nearest : NearestToEven q.value round.toInt
  ordered : floor.toInt ≤ round.toInt ∧ round.toInt ≤ ceiling.toInt
  neighbours : ceiling.toInt = floor.toInt + 1

end Canonical

/-- **Rounding of fractions.** The floor is the greatest integer below a fraction, the ceiling the
least one above it, and the fraction is rounded to the nearer one of the two, or to the even one. -/
theorem rounding_exact {q : Fraction} (canonical : q.Canonical) :
    ∃ floor ceiling round, q.RoundsTo floor ceiling round := by
  have positive : 0 < q.denominator.toInt := by
    have atLeastTwo := canonical.1
    omega
  have toInt : ∀ {n : Int}, FitsWord n → (Int64.ofInt n).toInt = n :=
    fun fits => Int64.toInt_ofInt_of_le fits.1 fits.2
  have below := toInt (fitsWord_floor canonical)
  have above := toInt (fitsWord_ceiling canonical)
  have rounded := toInt (fitsWord_round canonical)
  refine ⟨Int64.ofInt q.floor, Int64.ofInt q.ceiling, Int64.ofInt q.round,
    ⟨rfl, rfl, rfl⟩, ?_, ?_, ?_, ?_, ?_, ?_⟩
  · rw [below, above, rounded]
    exact ⟨floor?_eq canonical, ceiling?_eq canonical, round?_eq canonical⟩
  · rw [below]
    exact isGreatest_floor canonical
  · rw [above]
    exact isLeast_ceiling canonical
  · rw [rounded]
    exact nearestToEven_nearestInteger positive
  · rw [below, above, rounded]
    exact round_bounds
  · rw [below, above]
    rfl

/-- Both parts are as far from zero as they can be, and twice the remainder fits no 64-bit word. -/
theorem rounding_exact_at_the_bounds :
    let q : Fraction := ⟨-9223372036854775808, 9223372036854775807⟩
    q.Canonical ∧ q.RoundsTo (-2) (-1) (-1) := by
  intro q
  have canonical : q.Canonical := by decide
  obtain ⟨floor, ceiling, round, rounds⟩ := rounding_exact canonical
  obtain ⟨below, above, nearest⟩ := rounds.results
  have isFloor : (Number.fraction q).floor = .ok (.integer (-2)) := by decide
  have isCeiling : (Number.fraction q).ceiling = .ok (.integer (-1)) := by decide
  have isRound : (Number.fraction q).round = .ok (.integer (-1)) := by decide
  cases isFloor.symm.trans below
  cases isCeiling.symm.trans above
  cases isRound.symm.trans nearest
  exact ⟨canonical, rounds⟩

end Fraction

end SubstLisp
