import SubstLisp.Proofs.Number.ExactArithmetic

/-!
# Reduction of every pair of 128-bit words

Reduction changes the signs of both parts of a quotient with a negative denominator before it
divides by their greatest common divisor.  The least 128-bit word has no negation, and there the
program is aborted (`SubstLisp.SignStuck`); only an overflow of the numerator comes before the sign
of the denominator is changed.  Everywhere else the result is exact
(`SubstLisp.reduce_wide_words`).

The common divisor need not fit a signed word either, and is converted without a check.  This does
not show, because the sign of the denominator cannot be changed in that case
(`SubstLisp.reduce_eq_reduce?`).
-/

namespace SubstLisp

/-- The least signed 128-bit word. -/
def leastWide : Int :=
  -170141183460469231731687303715884105728

/-- No other word is without a negation. -/
theorem fitsWide_neg_iff {n : Int} (fits : FitsWide n) : FitsWide (-n) ↔ n ≠ leastWide := by
  unfold leastWide
  unfold FitsWide at fits ⊢
  omega

/-- The signs of both parts are to be changed, and one of the two has no negation.  That of the
denominator is not changed any more where the numerator overflows. -/
def SignStuck (numerator denominator : Int) : Prop :=
  denominator < 0 ∧ (numerator = leastWide ∨
    denominator = leastWide ∧ FitsWord ((numerator : Rat) / (denominator : Rat)).num)

instance (numerator denominator : Int) : Decidable (SignStuck numerator denominator) :=
  inferInstanceAs (Decidable (_ ∧ (_ ∨ _ ∧ _)))

section Wide

variable {numerator denominator : Int} (top : FitsWide numerator) (bottom : FitsWide denominator)
  (nonzero : denominator ≠ 0)
include top bottom nonzero

/-- Only the least word has a common divisor with zero or itself that does not fit. -/
theorem eq_leastWide_of_not_fitsWide_gcd (outside : ¬FitsWide (Int.gcd numerator denominator)) :
    (numerator = 0 ∨ numerator = leastWide) ∧ denominator = leastWide := by
  have second : Int.gcd numerator denominator ≤ denominator.natAbs :=
    Int.gcd_le_natAbs_right numerator nonzero
  by_cases zero : numerator = 0
  · unfold FitsWide at bottom outside
    unfold leastWide
    omega
  · have first : Int.gcd numerator denominator ≤ numerator.natAbs :=
      Int.gcd_le_natAbs_left denominator zero
    unfold FitsWide at top bottom outside
    unfold leastWide
    omega

/-- No check of a word is missing in reduction: that of the common divisor makes no difference. -/
theorem reduce_eq_reduce? : reduce numerator denominator = reduce? numerator denominator := by
  by_cases divisorFits : FitsWide (Int.gcd numerator denominator)
  · simp only [reduce, reduce?, nonzero, ↓reduceIte, commonDivisor_natAbs numerator nonzero,
      wide_eq_self divisorFits, wide?_eq_some divisorFits, Option.bind_eq_bind, Option.bind_some]
  · obtain ⟨rfl | rfl, rfl⟩ :=
      eq_leastWide_of_not_fitsWide_gcd top bottom nonzero divisorFits
    · decide
    · decide

/-- Converted, the common divisor can divide every word: no quotient is without a value, and none
leaves the range. -/
theorem wide_commonDivisor_ne :
    wide (commonDivisor numerator.natAbs denominator.natAbs) ≠ 0 ∧
      wide (commonDivisor numerator.natAbs denominator.natAbs) ≠ -1 := by
  by_cases divisorFits : FitsWide (Int.gcd numerator denominator)
  · have positive : 0 < Int.gcd numerator denominator := Int.gcd_pos_of_ne_zero_right _ nonzero
    rw [commonDivisor_natAbs numerator nonzero, wide_eq_self divisorFits]
    omega
  · obtain ⟨rfl | rfl, rfl⟩ :=
      eq_leastWide_of_not_fitsWide_gcd top bottom nonzero divisorFits
    · decide
    · decide

/-- All words on the way to a result fit if and only if no sign is stuck. -/
theorem fits_iff_not_signStuck :
    let sign : Int := if denominator < 0 then -1 else 1
    let quotient : Rat := numerator / denominator
    (FitsWide (Int.gcd numerator denominator) ∧ FitsWide (sign * numerator) ∧
        (FitsWord quotient.num → FitsWide (sign * denominator))) ↔
      ¬SignStuck numerator denominator := by
  intro sign quotient
  have divisorFits : ¬SignStuck numerator denominator →
      FitsWide (Int.gcd numerator denominator) := by
    intro free
    by_contra outside
    have zeroFits : FitsWord (((0 : Int) : Rat) / (leastWide : Rat)).num := by
      rw [Int.cast_zero, zero_div]
      decide
    obtain ⟨rfl | rfl, rfl⟩ := eq_leastWide_of_not_fitsWide_gcd top bottom nonzero outside
    · exact free ⟨by decide, .inr ⟨rfl, zeroFits⟩⟩
    · exact free ⟨by decide, .inl rfl⟩
  by_cases negative : denominator < 0
  case neg =>
    have free : ¬SignStuck numerator denominator := fun stuck => negative stuck.1
    simp only [sign, negative, ↓reduceIte, Int.one_mul]
    exact iff_of_true ⟨divisorFits free, top, fun _ => bottom⟩ free
  case pos =>
    have stuckIff : ¬SignStuck numerator denominator ↔ numerator ≠ leastWide ∧
        (FitsWord quotient.num → denominator ≠ leastWide) := by
      simp only [SignStuck, negative, true_and, not_or, not_and', ne_eq, quotient]
    simp only [sign, negative, ↓reduceIte, Int.neg_mul, Int.one_mul, fitsWide_neg_iff top,
      fitsWide_neg_iff bottom]
    rw [← stuckIff, and_iff_right_iff_imp]
    exact divisorFits

/-- Reduction finds the canonical form of a quotient, unless a sign is stuck. -/
theorem reduce_eq_ite :
    reduce numerator denominator =
      if SignStuck numerator denominator then none
      else some (Number.ofRat ((numerator : Rat) / (denominator : Rat))) := by
  rw [reduce_eq_reduce? top bottom nonzero, reduce?_eq_ite nonzero]
  by_cases stuck : SignStuck numerator denominator
  · rw [if_pos stuck, if_neg fun fits => (fits_iff_not_signStuck top bottom nonzero).mp fits stuck]
  · rw [if_neg stuck, if_pos ((fits_iff_not_signStuck top bottom nonzero).mpr stuck)]

end Wide

/-- Reduction of 128-bit words finds a zero denominator, and from any other one the exact result,
except that the program is aborted where a sign is stuck.  The checks on the way are complete: to
check the converted common divisor too makes no difference, and every word can be divided by it. -/
theorem reduce_wide_words {numerator denominator : Int} (top : FitsWide numerator)
    (bottom : FitsWide denominator) :
    (reduce numerator denominator = some (.error .divisionByZero) ↔ denominator = 0) ∧
    (reduce numerator denominator = none ↔ SignStuck numerator denominator) ∧
    (denominator ≠ 0 → ∀ result, reduce numerator denominator = some result →
      Number.ExactResult (numerator / denominator) result) ∧
    reduce numerator denominator = reduce? numerator denominator ∧
    (denominator ≠ 0 → wide (commonDivisor numerator.natAbs denominator.natAbs) ≠ 0 ∧
      wide (commonDivisor numerator.natAbs denominator.natAbs) ≠ -1) := by
  by_cases zero : denominator = 0
  case pos =>
    subst zero
    have found : reduce numerator 0 = some (.error .divisionByZero) := if_pos rfl
    have checked : reduce? numerator 0 = some (.error .divisionByZero) := if_pos rfl
    have free : ¬SignStuck numerator 0 := fun stuck => absurd stuck.1 (by decide)
    rw [found, checked]
    exact ⟨iff_of_true rfl rfl, iff_of_false (Option.some_ne_none _) free, absurd rfl, rfl,
      absurd rfl⟩
  case neg =>
    have found := reduce_eq_ite top bottom zero
    refine ⟨iff_of_false ?_ zero, ?_, ?_, reduce_eq_reduce? top bottom zero,
      fun _ => wide_commonDivisor_ne top bottom zero⟩
    · intro failed
      rw [found, Option.ite_none_left_eq_some, Option.some.injEq,
        Number.ofRat_eq_error_iff] at failed
      cases failed.2.1
    · rw [found, ite_eq_left_iff]
      simp only [reduceCtorEq, imp_false, not_not]
    · intro _ result isResult
      rw [found, Option.ite_none_left_eq_some, Option.some.injEq] at isResult
      rw [← isResult.2]
      exact Number.exactResult_ofRat _

/-- The least word over minus three aborts, but the greatest one over the least does not: its
quotient overflows before. -/
theorem reduce_wide_words_at_the_bounds :
    let greatest : Int := 170141183460469231731687303715884105727
    FitsWide leastWide ∧ FitsWide greatest ∧ FitsWide (-3) ∧ leastWide ≠ 0 ∧
    reduce leastWide (-3) = none ∧
    Number.ExactResult (greatest / leastWide) (.error .overflow) := by
  intro greatest
  have first : FitsWide leastWide := by decide
  have second : FitsWide greatest := by decide
  have third : FitsWide (-3) := by decide
  have nonzero : leastWide ≠ 0 := by decide
  have stuck : SignStuck leastWide (-3) := ⟨by decide, .inl rfl⟩
  have overflows : reduce greatest leastWide = some (.error .overflow) := by decide
  exact ⟨first, second, third, nonzero, (reduce_wide_words first third).2.1.mpr stuck,
    (reduce_wide_words second first).2.2.1 nonzero _ overflows⟩

/-- Two quotients without a result, though both have an exact one: the least word over `-2 ^ 126` is
two, and `2 ^ 126` over the least word is minus one half. -/
theorem reduce_aborts :
    let half : Int := 85070591730234615865843651857942052864
    FitsWide leastWide ∧ FitsWide half ∧ FitsWide (-half) ∧
    reduce leastWide (-half) = none ∧
    Number.ExactResult (leastWide / (-half : Int)) (.ok (.integer 2)) ∧
    reduce half leastWide = none ∧
    Number.ExactResult (half / leastWide) (.ok (.fraction ⟨-1, 2⟩)) := by
  intro half
  have two : (leastWide : Rat) / (-half : Int) = (2 : Int) / (1 : Int) := by
    norm_num [leastWide, half]
  have minusHalf : (half : Rat) / leastWide = (-1 : Int) / (2 : Int) := by
    norm_num [leastWide, half]
  have canonical : (Number.fraction ⟨-1, 2⟩).Canonical := by
    show Fraction.Canonical _
    decide
  have whole : Number.ofRat ((2 : Int) / (1 : Int)) = .ok (.integer 2) :=
    Number.ofRat_quotient (by decide) trivial
  have fraction : Number.ofRat ((-1 : Int) / (2 : Int)) = .ok (.fraction ⟨-1, 2⟩) :=
    Number.ofRat_quotient (by decide) canonical
  refine ⟨by decide, by decide, by decide, by decide, ?_, by decide, ?_⟩
  · rw [two, ← whole]
    exact Number.exactResult_ofRat _
  · rw [minusHalf, ← fraction]
    exact Number.exactResult_ofRat _

end SubstLisp
