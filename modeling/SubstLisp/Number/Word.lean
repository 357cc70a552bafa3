/-!
# Machine words

Exact numbers are made of signed 64-bit words, and a result that does not fit a word is refused.
The products on the way to a result take signed 128-bit words.  An operation on those whose value
does not fit aborts the program; only a conversion from an unsigned word wraps around.
-/

namespace SubstLisp

abbrev Word := Int64

/-- The integers of a signed 64-bit word: those from `-2 ^ 63` up to, not including, `2 ^ 63`. -/
def FitsWord (n : Int) : Prop :=
  -9223372036854775808 ≤ n ∧ n < 9223372036854775808

instance (n : Int) : Decidable (FitsWord n) :=
  inferInstanceAs (Decidable (_ ∧ _))

/-- The word with a given value, if there is one. -/
def wordOf? (n : Int) : Option Word :=
  if FitsWord n then some (Int64.ofInt n) else none

/-- The integers of a signed 128-bit word: those from `-2 ^ 127` up to, not including, `2 ^ 127`. -/
def FitsWide (n : Int) : Prop :=
  -170141183460469231731687303715884105728 ≤ n ∧ n < 170141183460469231731687303715884105728

instance (n : Int) : Decidable (FitsWide n) :=
  inferInstanceAs (Decidable (_ ∧ _))

/-- The signed 128-bit word with a given value, if there is one. -/
def wide? (n : Int) : Option Int :=
  if FitsWide n then some n else none

/-- What `n` is converted to in a signed 128-bit word: the integer of such a word that differs from
`n` by a multiple of `2 ^ 128`. -/
def wide (n : Int) : Int :=
  n.bmod 340282366920938463463374607431768211456

/-- A value that fits passes the check. -/
theorem wide?_eq_some {n : Int} (fits : FitsWide n) : wide? n = some n := by
  simp only [wide?, fits, ↓reduceIte]

/-- A number that fits is not changed by its conversion. -/
theorem wide_eq_self {n : Int} (fits : FitsWide n) : wide n = n := by
  obtain ⟨low, high⟩ := fits
  unfold wide
  rw [Int.bmod_def]
  omega

/-- A checked word is the converted one. -/
theorem wide_of_wide? {n m : Int} (found : wide? n = some m) : wide n = m := by
  unfold wide? at found
  split at found
  case isTrue fits =>
    cases found
    exact wide_eq_self fits
  case isFalse => cases found

/-- The value of a word fits one. -/
theorem fitsWord_toInt (w : Word) : FitsWord w.toInt :=
  ⟨w.le_toInt, w.toInt_lt⟩

/-- A word is the one with its value. -/
theorem wordOf?_toInt (w : Word) : wordOf? w.toInt = some w := by
  simp [wordOf?, fitsWord_toInt w]

/-- The word that is found has the value it was looked up for. -/
theorem toInt_of_wordOf? {n : Int} {w : Word} (found : wordOf? n = some w) : w.toInt = n := by
  unfold wordOf? at found
  split at found
  case isTrue fits =>
    cases found
    exact Int64.toInt_ofInt_of_le fits.1 fits.2
  case isFalse => cases found

/-- A word exists for exactly the integers that fit one. -/
theorem wordOf?_eq_none_iff {n : Int} : wordOf? n = none ↔ ¬FitsWord n := by
  simp [wordOf?]

end SubstLisp
