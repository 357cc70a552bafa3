import Mathlib.Data.List.Induction
import Mathlib.Data.List.TakeWhile
import Mathlib.Data.Nat.Digits.Defs
import SubstLisp.Proofs.Number.ExactNumber
import SubstLisp.Proofs.Reading.Legibility

/-! # Literals of exact numbers

An exact number is written as an integer, or as two integers with a slash between them. This module
says which texts these are and which rational numbers they are written for (`SubstLisp.IsLiteral`).
A text denotes an exact number just if it is such a literal, and then the canonical form of the
rational number; no other text with a slash in it denotes a number (`SubstLisp.literals_exact`).
-/

namespace SubstLisp

/-! ### The written forms -/

/-- The number that some digits are written for, the last one in the place of the units. -/
def digitsValue (digits : List Char) : Nat :=
  Nat.ofDigits 10 (digits.reverse.map fun c => c.toNat - '0'.toNat)

/-- Digits, and at least one. -/
def AreDigits (cs : List Char) : Prop :=
  cs ≠ [] ∧ ∀ c ∈ cs, c.isDigit

/-- Characters that are written for an integer: digits, with a sign in front of them or not. -/
inductive IsIntegerText : List Char → Int → Prop where
  | unsigned {digits : List Char} (areDigits : AreDigits digits) :
      IsIntegerText digits (digitsValue digits)
  | plus {digits : List Char} (areDigits : AreDigits digits) :
      IsIntegerText ('+' :: digits) (digitsValue digits)
  | minus {digits : List Char} (areDigits : AreDigits digits) :
      IsIntegerText ('-' :: digits) (-digitsValue digits)

/-- Characters that are written for a rational number: an integer that fits a word, or two of them
with the first slash between them, if the latter is not zero and the quotient can be represented. -/
inductive IsLiteral : List Char → Rat → Prop where
  | integer {cs : List Char} {n : Int} (written : IsIntegerText cs n) (fits : FitsWord n) :
      IsLiteral cs n
  | quotient {before after : List Char} {n d : Int} (first : '/' ∉ before)
      (top : IsIntegerText before n) (bottom : IsIntegerText after d) (topFits : FitsWord n)
      (bottomFits : FitsWord d) (nonzero : d ≠ 0) (representable : Representable (n / d)) :
      IsLiteral (before ++ '/' :: after) (n / d)

/-! ### Integers -/

/-- Digits are worth what they are worth in the decimal system. -/
theorem ofDigitChars_eq_digitsValue (digits : List Char) :
    Nat.ofDigitChars 10 digits 0 = digitsValue digits := by
  -- From the last digit on, since that is where both start.
  induction digits using List.reverseRecOn with
  | nil => rfl
  | append_singleton digits last ih =>
    rw [digitsValue, List.reverse_append, List.reverse_singleton, List.singleton_append,
      List.map_cons, Nat.ofDigits_cons, ← digitsValue, ← ih, Nat.add_comm]
    simp only [Nat.ofDigitChars, List.foldl_append, List.foldl_cons, List.foldl_nil]

/-- Just a text of digits is a natural number, and stands for their value. -/
theorem naturalLiteral?_eq_some_iff {cs : List Char} {n : Nat} :
    naturalLiteral? cs = some n ↔ AreDigits cs ∧ n = digitsValue cs := by
  have nonempty : (!cs.isEmpty) = true ↔ cs ≠ [] := by simp
  rw [naturalLiteral?, Option.ite_none_right_eq_some, Bool.and_eq_true, nonempty, List.all_eq_true,
    ofDigitChars_eq_digitsValue, Option.some.injEq, eq_comm, AreDigits]

/-- An integer is read as a sign and a natural number. -/
theorem integerLiteral?_eq_map (cs : List Char) :
    integerLiteral? cs = (naturalLiteral? (splitSign cs).2).map fun n : Nat =>
      if (splitSign cs).1 then -(n : Int) else (n : Int) := by
  unfold integerLiteral?
  obtain ⟨negative, magnitude⟩ := splitSign cs
  simp only
  cases naturalLiteral? magnitude <;> rfl

/-- Just a text of an integer is read as one, with a sign or without. -/
theorem integerLiteral?_eq_some_iff {cs : List Char} {n : Int} :
    integerLiteral? cs = some n ↔ IsIntegerText cs n := by
  rw [integerLiteral?_eq_map, Option.map_eq_some_iff]
  constructor
  · rintro ⟨magnitude, found, rfl⟩
    obtain ⟨areDigits, rfl⟩ := naturalLiteral?_eq_some_iff.mp found
    unfold splitSign at areDigits ⊢
    split at areDigits
    · exact .minus areDigits
    · exact .plus areDigits
    · exact .unsigned areDigits
  · intro written
    cases written with
    | unsigned areDigits =>
      rw [splitSign_of_digits areDigits.2]
      exact ⟨_, naturalLiteral?_eq_some_iff.mpr ⟨areDigits, rfl⟩, rfl⟩
    | plus areDigits => exact ⟨_, naturalLiteral?_eq_some_iff.mpr ⟨areDigits, rfl⟩, rfl⟩
    | minus areDigits => exact ⟨_, naturalLiteral?_eq_some_iff.mpr ⟨areDigits, rfl⟩, rfl⟩

/-- Just a text of an integer that fits a word is read as one. -/
theorem wordLiteral?_eq_some_iff {cs : List Char} {w : Int64} :
    wordLiteral? cs = some w ↔ IsIntegerText cs w.toInt := by
  rw [wordLiteral?, Option.bind_eq_some_iff]
  constructor
  · rintro ⟨n, found, fits⟩
    rw [toInt_of_wordOf? fits]
    exact integerLiteral?_eq_some_iff.mp found
  · intro written
    exact ⟨w.toInt, integerLiteral?_eq_some_iff.mpr written, wordOf?_toInt w⟩

/-- A text with a slash is no integer. -/
theorem wordLiteral?_of_slash {cs : List Char} (slash : '/' ∈ cs) : wordLiteral? cs = none := by
  rw [wordLiteral?, integerLiteral?_eq_none slash (by decide) (by decide) (by decide)]
  rfl

/-! ### Quotients -/

/-- A text is split at the only separator that has none before it. -/
theorem splitAtFirst?_eq_some_iff {separator : Char} {cs before after : List Char} :
    splitAtFirst? separator cs = some (before, after) ↔
      cs = before ++ separator :: after ∧ separator ∉ before := by
  constructor
  · intro found
    induction cs generalizing before with
    | nil => cases found
    | cons c rest ih =>
      by_cases isSeparator : c = separator
      · rw [splitAtFirst?, if_pos isSeparator] at found
        cases found
        exact ⟨by rw [isSeparator, List.nil_append], List.not_mem_nil⟩
      · rw [splitAtFirst?, if_neg isSeparator, Option.map_eq_some_iff] at found
        obtain ⟨⟨front, back⟩, split, same⟩ := found
        cases same
        obtain ⟨rfl, absent⟩ := ih split
        exact ⟨rfl, List.not_mem_cons_of_ne_of_not_mem (Ne.symm isSeparator) absent⟩
  · rintro ⟨rfl, absent⟩
    refine splitAtFirst?_append ?_ after
    rintro c member rfl
    exact absent member

/-- A quotient is written as two integers that fit words, with a slash between them. -/
theorem quotientLiteral?_eq_some_iff {cs : List Char} {numerator denominator : Int64} :
    quotientLiteral? cs = some (numerator, denominator) ↔
      ∃ before after, cs = before ++ '/' :: after ∧ '/' ∉ before ∧
        IsIntegerText before numerator.toInt ∧ IsIntegerText after denominator.toInt := by
  simp only [quotientLiteral?, Option.bind_eq_bind, Option.pure_def, Option.bind_eq_some_iff,
    Prod.exists, splitAtFirst?_eq_some_iff, wordLiteral?_eq_some_iff, Option.some.injEq,
    Prod.mk.injEq]
  constructor
  · rintro ⟨before, after, ⟨rfl, absent⟩, n, top, d, bottom, rfl, rfl⟩
    exact ⟨before, after, rfl, absent, top, bottom⟩
  · rintro ⟨before, after, rfl, absent, top, bottom⟩
    exact ⟨before, after, ⟨rfl, absent⟩, numerator, top, denominator, bottom, rfl, rfl⟩

/-- Two words are reduced to the canonical form of their quotient, and the program is
never aborted. -/
theorem reduce_words (numerator : Int64) {denominator : Int64} (nonzero : denominator.toInt ≠ 0) :
    reduce numerator.toInt denominator.toInt =
      some (Number.ofRat ((numerator.toInt : Rat) / (denominator.toInt : Rat))) :=
  reduce_of_reduce? (reduce?_eq_ofRat nonzero
    (fitsWideBothWays_of_fitsWord (fitsWord_toInt numerator))
    (fitsWideBothWays_of_fitsWord (fitsWord_toInt denominator)))

/-! ### Decimals -/

/-- There is no slash in an exponent. -/
theorem exponentLiteral?_of_slash {cs : List Char} (slash : '/' ∈ cs) :
    exponentLiteral? cs = none := by
  cases cs with
  | nil => cases slash
  | cons c rest =>
    rw [exponentLiteral?]
    by_cases isMark : (decide (c = 'e') || decide (c = 'E')) = true
    · have notSlash : '/' ≠ c := by
        rintro rfl
        exact absurd isMark (by decide)
      have later := (List.mem_cons.mp slash).resolve_left notSlash
      rw [if_pos isMark, integerLiteral?_eq_none later (by decide) (by decide) (by decide)]
    · rw [if_neg isMark]

/-- A slash comes behind the leading digits. -/
theorem slash_mem_dropWhile {cs : List Char} (slash : '/' ∈ cs) :
    '/' ∈ cs.dropWhile Char.isDigit := by
  rw [← List.takeWhile_append_dropWhile (p := Char.isDigit) (l := cs), List.mem_append] at slash
  refine slash.resolve_left fun inDigits => ?_
  exact absurd (List.mem_takeWhile_imp inDigits) (by decide)

/-- There is no slash in a decimal without a sign. -/
theorem unsignedDecimalLiteral?_of_slash {cs : List Char} (slash : '/' ∈ cs) :
    unsignedDecimalLiteral? cs = none := by
  have noExponent : ∀ {missing : Bool} {value : Int → Float} {behind : List Char}, '/' ∈ behind →
      (if missing then none else (exponentLiteral? behind).map value) = none := by
    intro missing value behind inside
    rw [exponentLiteral?_of_slash inside, Option.map_none, ite_self]
  have behindWhole := slash_mem_dropWhile slash
  refine noExponent ?_
  split
  case h_1 rest whole =>
    rw [whole] at behindWhole
    exact slash_mem_dropWhile ((List.mem_cons.mp behindWhole).resolve_left (by decide))
  case h_2 => exact behindWhole

/-- There is no slash in a decimal. -/
theorem decimalLiteral?_of_slash {cs : List Char} (slash : '/' ∈ cs) :
    decimalLiteral? cs = none := by
  have inside : '/' ∈ (splitSign cs).2 := by
    unfold splitSign
    split
    · exact (List.mem_cons.mp slash).resolve_left (by decide)
    · exact (List.mem_cons.mp slash).resolve_left (by decide)
    · exact slash
  unfold decimalLiteral?
  simp only [unsignedDecimalLiteral?_of_slash inside, Option.map_none]

/-! ### Exact numbers among the literals -/

/-- A literal stands for a number whose parts fit words. -/
theorem IsLiteral.representable {cs : List Char} {x : Rat} (written : IsLiteral cs x) :
    Representable x := by
  cases written with
  | integer written fits => exact ⟨by rwa [Rat.num_intCast], by rw [Rat.den_intCast]; decide⟩
  | quotient _ _ _ _ _ _ representable => exact representable

theorem exists_toInt_eq {n : Int} (fits : FitsWord n) : ∃ w : Int64, w.toInt = n :=
  ⟨Int64.ofInt n, Int64.toInt_ofInt_of_le fits.1 fits.2⟩

/-- The number that is read is the one that is written. -/
theorem numberLiteral?_of_isLiteral {cs : List Char} {a : ExactNumber}
    (written : IsLiteral cs a.value) : numberLiteral? cs = some a.number := by
  generalize same : a.value = x at written
  cases written with
  | @integer _ n written fits =>
    obtain ⟨w, rfl⟩ := exists_toInt_eq fits
    rw [← ExactNumber.value_integer w] at same
    rw [numberLiteral?, wordLiteral?_eq_some_iff.mpr written, ExactNumber.value_injective same]
    rfl
  | @quotient before after n d first top bottom topFits bottomFits nonzero _ =>
    obtain ⟨numerator, rfl⟩ := exists_toInt_eq topFits
    obtain ⟨denominator, rfl⟩ := exists_toInt_eq bottomFits
    have slash : '/' ∈ before ++ '/' :: after := by simp
    have parts := quotientLiteral?_eq_some_iff.mpr ⟨before, after, rfl, first, top, bottom⟩
    rw [numberLiteral?, wordLiteral?_of_slash slash, parts]
    simp only [reduce_words numerator nonzero, Option.bind_some]
    rw [← same, a.ofRat_value]
    rfl

/-- What is read as an exact number is a literal of its value. -/
theorem isLiteral_of_numberLiteral? {cs : List Char} {a : ExactNumber}
    (read : numberLiteral? cs = some a.number) : IsLiteral cs a.value := by
  generalize same : a.number = value at read
  cases isReadAs_of_numberLiteral? read with
  | @integer w found =>
    have isWord : a = .integer w := ExactNumber.number_injective same
    rw [isWord, ExactNumber.value_integer]
    exact .integer (wordLiteral?_eq_some_iff.mp found) (fitsWord_toInt w)
  | @quotient numerator denominator _ found reduced =>
    obtain ⟨before, after, rfl, first, top, bottom⟩ := quotientLiteral?_eq_some_iff.mp found
    have nonzero : denominator.toInt ≠ 0 := by
      intro zero
      rw [zero, reduce, if_pos rfl] at reduced
      cases reduced
    rw [reduce_words numerator nonzero, Option.some.injEq] at reduced
    obtain ⟨b, number, isQuotient⟩ := ExactNumber.exists_of_ofRat reduced
    have isSame : b = a := ExactNumber.number_injective (number.trans same.symm)
    rw [← isSame, isQuotient]
    exact .quotient first top bottom (fitsWord_toInt numerator) (fitsWord_toInt denominator)
      nonzero (isQuotient ▸ b.representable_value)
  | decimal _ =>
    have exact := a.exact
    rw [same] at exact
    exact exact.elim

/-- A text denotes an exact number just if it is a literal of its value. -/
theorem classify_eq_number_iff {text : String} {a : ExactNumber} :
    Token.classify text = .number a.number ↔ IsLiteral text.toList a.value := by
  constructor
  · intro denoted
    exact isLiteral_of_numberLiteral? (Token.classify_eq_number denoted)
  · intro written
    exact Token.classify_of_numberLiteral? (numberLiteral?_of_isLiteral written)

/-- With a slash in it, a text is written for an exact number or for none. -/
theorem isExact_of_slash {text : String} (slash : '/' ∈ text.toList) {number : Number}
    (denoted : Token.classify text = .number number) : number.IsExact := by
  cases isReadAs_of_numberLiteral? (Token.classify_eq_number denoted) with
  | integer _ => exact trivial
  | quotient _ reduced => exact (reduce_staysExact reduced).result
  | decimal found =>
    rw [decimalLiteral?_of_slash slash] at found
    cases found

/-- **Literals of exact numbers.** A text denotes an exact number just if it is a literal of one,
and then the number that the literal is written for. Any other text with a slash in it denotes no
number at all. And whatever a text denotes is denoted by its written form as well, unless it is a
floating-point number. -/
theorem literals_exact (text : String) :
    ((∃ number : Number, Token.classify text = .number number ∧ number.IsExact) ↔
      ∃ x, IsLiteral text.toList x) ∧
    (∀ x, IsLiteral text.toList x →
      ∃ a : ExactNumber, a.value = x ∧ Token.classify text = .number a.number) ∧
    ('/' ∈ text.toList → (¬∃ x, IsLiteral text.toList x) →
      ∀ number, Token.classify text ≠ .number number) ∧
    ((Token.classify text).IsExact →
      Token.classify (Token.classify text).text = Token.classify text) := by
  have literal : ∀ number : Number, Token.classify text = .number number → number.IsExact →
      ∃ x, IsLiteral text.toList x := by
    intro number denoted exact
    have canonical := numberLiteral?_canonical (Token.classify_eq_number denoted)
    let a : ExactNumber := ⟨number, exact, canonical⟩
    exact ⟨a.value, classify_eq_number_iff.mp denoted⟩
  have value : ∀ x, IsLiteral text.toList x →
      ∃ a : ExactNumber, a.value = x ∧ Token.classify text = .number a.number := by
    intro x written
    obtain ⟨a, rfl⟩ := ExactNumber.exists_of_representable written.representable
    exact ⟨a, rfl, classify_eq_number_iff.mpr written⟩
  refine ⟨⟨?_, ?_⟩, value, ?_, Token.classify_text_classify⟩
  · rintro ⟨number, denoted, exact⟩
    exact literal number denoted exact
  · rintro ⟨x, written⟩
    obtain ⟨a, -, denoted⟩ := value x written
    exact ⟨a.number, denoted, a.exact⟩
  · intro slash unwritten number denoted
    exact unwritten (literal number denoted (isExact_of_slash slash denoted))

-- The first slash splits the text, and the second one is in no integer.
example : Token.classify "1/2/3" = .identifier "1/2/3" := by
  rfl

end SubstLisp
