import Mathlib.Data.Rat.Lemmas
import SubstLisp.Number.Arithmetic

/-!
# Exact numbers as rational numbers

An exact number in canonical form is determined by the rational number it stands for, and a
rational number has a canonical form exactly when its reduced numerator and denominator fit words
(`SubstLisp.Number.ofRat`).
-/

namespace SubstLisp

namespace Number

/-- The canonical form of a rational number, an overflow if a part of it does not fit a word. -/
def ofRat (x : Rat) : Except ArithmeticError Number :=
  match wordOf? x.num, wordOf? x.den with
  | some n, some d => .ok (if d = 1 then .integer n else .fraction ⟨n, d⟩)
  | _, _ => .error .overflow

/-- A result is the canonical form of `x`, and an overflow if there is no such number. -/
structure ExactResult (x : Rat) (result : Except ArithmeticError Number) : Prop where
  ok_iff : ∀ a, result = .ok a ↔ a.Canonical ∧ a.value? = some x
  error_iff : ∀ e, result = .error e ↔ e = .overflow ∧ ¬(FitsWord x.num ∧ FitsWord x.den)

/-- The two parts of an exact number are words, and the denominator is positive. -/
theorem quotient?_bounds {a : Number} {n d : Int} (found : a.quotient? = some (n, d))
    (canonical : a.Canonical) : FitsWord n ∧ FitsWord d ∧ 0 < d := by
  cases a with
  | integer k =>
    cases found
    exact ⟨fitsWord_toInt k, by decide, by decide⟩
  | fraction q =>
    cases found
    have atLeastTwo := canonical.1
    exact ⟨fitsWord_toInt _, fitsWord_toInt _, by omega⟩
  | float x => cases found

/-- The parts of a number in canonical form are those of the rational number it stands for. -/
theorem num_den_of_quotient? {a : Number} {n d : Int} (found : a.quotient? = some (n, d))
    (canonical : a.Canonical) :
    ((n : Rat) / (d : Rat)).num = n ∧ (((n : Rat) / (d : Rat)).den : Int) = d := by
  have positive := (quotient?_bounds found canonical).2.2
  have coprime : Nat.Coprime n.natAbs d.natAbs := by
    cases a with
    | integer k =>
      cases found
      exact Nat.coprime_one_right _
    | fraction q =>
      cases found
      exact canonical.2
    | float x => cases found
  exact ⟨Rat.num_div_eq_of_coprime positive coprime, Rat.den_div_eq_of_coprime positive coprime⟩

/-- What `ofRat` finds is in canonical form and stands for the rational number it was found for. -/
theorem ofRat_eq_ok {x : Rat} {a : Number} (found : ofRat x = .ok a) :
    a.Canonical ∧ a.value? = some x := by
  unfold ofRat at found
  split at found
  case h_2 => cases found
  case h_1 n d numerator denominator =>
    cases found
    have numEq := toInt_of_wordOf? numerator
    have denEq := toInt_of_wordOf? denominator
    by_cases whole : d = 1
    · subst whole
      have denOne : x.den = 1 := by
        have one : (1 : Word).toInt = 1 := by decide
        omega
      refine ⟨trivial, ?_⟩
      simp only [↓reduceIte, value?, quotient?, Option.map_some, numEq, Int.cast_one, div_one]
      rw [← Rat.num_div_den x, denOne]
      simp
    · have positive := x.den_pos
      have notOne : d.toInt ≠ 1 := fun one => whole (Int64.toInt_inj.mp one)
      simp only [whole, ↓reduceIte]
      refine ⟨⟨?_, ?_⟩, ?_⟩
      · show 2 ≤ d.toInt
        omega
      · show Int.gcd n.toInt d.toInt = 1
        rw [numEq, denEq]
        exact x.reduced
      · simp only [value?, quotient?, Option.map_some, numEq, denEq, Int.cast_natCast,
          Rat.num_div_den]

/-- An overflow is found for exactly the rational numbers with a part that does not fit a word. -/
theorem ofRat_eq_error_iff {x : Rat} {e : ArithmeticError} :
    ofRat x = .error e ↔ e = .overflow ∧ ¬(FitsWord x.num ∧ FitsWord x.den) := by
  unfold ofRat
  cases numerator : wordOf? x.num with
  | none => simp [wordOf?_eq_none_iff.mp numerator, eq_comm]
  | some n =>
    have fits : FitsWord x.num := toInt_of_wordOf? numerator ▸ fitsWord_toInt n
    cases denominator : wordOf? x.den with
    | none => simp [fits, wordOf?_eq_none_iff.mp denominator, eq_comm]
    | some d =>
      have fitsToo : FitsWord x.den := toInt_of_wordOf? denominator ▸ fitsWord_toInt d
      simp [fits, fitsToo]

/-- A number in canonical form is the one found for the rational number it stands for. -/
theorem ofRat_quotient {a : Number} {n d : Int} (found : a.quotient? = some (n, d))
    (canonical : a.Canonical) : ofRat ((n : Rat) / (d : Rat)) = .ok a := by
  obtain ⟨numEq, denEq⟩ := num_den_of_quotient? found canonical
  unfold ofRat
  rw [numEq, denEq]
  cases a with
  | integer k =>
    cases found
    have one : wordOf? 1 = some 1 := by decide
    simp [wordOf?_toInt, one]
  | fraction q =>
    cases found
    have notOne : q.denominator ≠ 1 := by
      intro one
      have atLeastTwo := canonical.1
      rw [one] at atLeastTwo
      exact absurd atLeastTwo (by decide)
    simp [wordOf?_toInt, notOne]
  | float x => cases found

/-- The canonical form of a rational number is its exact result. -/
theorem exactResult_ofRat (x : Rat) : ExactResult x (ofRat x) where
  ok_iff a := by
    constructor
    · exact ofRat_eq_ok
    · intro standsFor
      obtain ⟨canonical, value⟩ := standsFor
      unfold value? at value
      obtain ⟨⟨n, d⟩, found, rfl⟩ := Option.map_eq_some_iff.mp value
      exact ofRat_quotient found canonical
  error_iff _ := ofRat_eq_error_iff

end Number

end SubstLisp
