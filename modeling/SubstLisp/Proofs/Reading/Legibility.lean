import SubstLisp.Proofs.Reading.Classification
import SubstLisp.Proofs.Reading.Leaves
import SubstLisp.Proofs.Reading.Lexemes

/-! # Tokens that are read as they are written

A token is legible if its text is one atom that denotes this token. Every token that an atom denotes
is legible, and so are all exact numbers in canonical form (`SubstLisp.Token.legible_classify`,
`SubstLisp.Number.legible`). Floating-point numbers are left aside, since some are written as names.
-/

namespace SubstLisp

/-- The text of the token is read as one atom, which denotes the token. -/
structure Token.Legible (token : Token) : Prop where
  isAtom : IsAtomText token.text.toList
  reads : Token.classify token.text = token

/-! ### Integers -/

theorem isDigit_of_mem_toDigits {n : Nat} : ∀ c ∈ Nat.toDigits 10 n, c.isDigit :=
  fun _ member => Nat.isDigit_of_mem_toDigits (by decide) (by decide) member

/-- A natural number is written without a sign. -/
theorem toList_toString_ofNat (n : Nat) : (toString (Int.ofNat n)).toList = Nat.toDigits 10 n :=
  Nat.toList_repr

/-- A negative number is written as a sign and its absolute value. -/
theorem toList_toString_negSucc (n : Nat) :
    (toString (Int.negSucc n)).toList = '-' :: Nat.toDigits 10 (n + 1) := by
  change ("-" ++ (n + 1).repr).toList = _
  rw [String.toList_append, Nat.toList_repr]
  rfl

/-- An integer is written with digits and possibly a sign. -/
theorem mem_toString_int {n : Int} : ∀ c ∈ (toString n).toList, c = '-' ∨ c.isDigit := by
  intro c member
  cases n with
  | ofNat m =>
    rw [toList_toString_ofNat] at member
    exact .inr (isDigit_of_mem_toDigits c member)
  | negSucc m =>
    rw [toList_toString_negSucc, List.mem_cons] at member
    exact member.imp id (isDigit_of_mem_toDigits c)

theorem toString_int_ne_nil (n : Int) : (toString n).toList ≠ [] := by
  cases n with
  | ofNat m =>
    rw [toList_toString_ofNat]
    exact Nat.toDigits_ne_nil
  | negSucc m =>
    rw [toList_toString_negSucc]
    exact List.cons_ne_nil _ _

/-- A natural number is read again from its digits. -/
theorem naturalLiteral?_toDigits (n : Nat) : naturalLiteral? (Nat.toDigits 10 n) = some n := by
  have digits : (Nat.toDigits 10 n).all Char.isDigit := List.all_eq_true.mpr isDigit_of_mem_toDigits
  simp [naturalLiteral?, digits, Nat.toDigits_ne_nil, Nat.ofDigitChars_ten_toDigits]

/-- Digits have no sign in front of them. -/
theorem splitSign_of_digits {cs : List Char} (digits : ∀ c ∈ cs, c.isDigit) :
    splitSign cs = (false, cs) := by
  unfold splitSign
  split
  · have minus := digits '-' List.mem_cons_self
    contradiction
  · have plus := digits '+' List.mem_cons_self
    contradiction
  · rfl

/-- An integer is read again from its text. -/
theorem integerLiteral?_toString (n : Int) : integerLiteral? (toString n).toList = some n := by
  cases n with
  | ofNat m =>
    rw [toList_toString_ofNat, integerLiteral?, splitSign_of_digits isDigit_of_mem_toDigits]
    simp [naturalLiteral?_toDigits]
  | negSucc m =>
    rw [toList_toString_negSucc, integerLiteral?, splitSign]
    simp [naturalLiteral?_toDigits, Int.negSucc_eq]

/-- A word is read again from its text. -/
theorem wordLiteral?_toString (w : Word) : wordLiteral? (toString w.toInt).toList = some w := by
  rw [wordLiteral?, integerLiteral?_toString, Option.bind_some, wordOf?_toInt]

/-! ### Fractions -/

/-- A character that is neither a digit nor a sign is in no integer. -/
theorem integerLiteral?_eq_none {cs : List Char} {c : Char} (member : c ∈ cs) (digit : ¬c.isDigit)
    (minus : c ≠ '-') (plus : c ≠ '+') : integerLiteral? cs = none := by
  have inside : c ∈ (splitSign cs).2 := by
    unfold splitSign
    split
    · exact (List.mem_cons.mp member).resolve_left minus
    · exact (List.mem_cons.mp member).resolve_left plus
    · exact member
  have notDigits : ((splitSign cs).2).all Char.isDigit = false :=
    List.all_eq_false.mpr ⟨c, inside, digit⟩
  simp [integerLiteral?, naturalLiteral?, notDigits]

/-- A separator that does not occur before it is the first one. -/
theorem splitAtFirst?_append {separator : Char} {before : List Char}
    (absent : ∀ c ∈ before, c ≠ separator) (after : List Char) :
    splitAtFirst? separator (before ++ separator :: after) = some (before, after) := by
  induction before with
  | nil => simp [splitAtFirst?]
  | cons c rest ih =>
    rw [List.forall_mem_cons] at absent
    simp [splitAtFirst?, absent.1, ih absent.2]

/-- A fraction is written as its numerator, a slash and its denominator. -/
theorem toList_fraction_text (q : Fraction) :
    (Number.fraction q).text.toList =
      (toString q.numerator.toInt).toList ++ '/' :: (toString q.denominator.toInt).toList := by
  simp [Number.text, String.toList_append]

/-- A fraction in canonical form is read again from its text. -/
theorem numberLiteral?_fraction {q : Fraction} (canonical : q.Canonical) :
    numberLiteral? (Number.fraction q).text.toList = some (.fraction q) := by
  have slash : ∀ c ∈ (toString q.numerator.toInt).toList, c ≠ '/' := by
    rintro c member rfl
    rcases mem_toString_int '/' member with sign | digit
    · cases sign
    · cases digit
  have notWord : wordLiteral? (Number.fraction q).text.toList = none := by
    have member : '/' ∈ (Number.fraction q).text.toList := by
      rw [toList_fraction_text]
      exact List.mem_append_right _ List.mem_cons_self
    rw [wordLiteral?, integerLiteral?_eq_none member (by decide) (by decide) (by decide)]
    rfl
  have quotient : quotientLiteral? (Number.fraction q).text.toList =
      some (q.numerator, q.denominator) := by
    rw [toList_fraction_text, quotientLiteral?, splitAtFirst?_append slash]
    simp only [Option.bind_eq_bind, Option.bind_some, wordLiteral?_toString, Option.pure_def]
  have reduced : reduce q.numerator.toInt q.denominator.toInt = some (.ok (.fraction q)) := by
    have top := fitsWideBothWays_of_fitsWord (fitsWord_toInt q.numerator)
    have bottom := fitsWideBothWays_of_fitsWord (fitsWord_toInt q.denominator)
    have nonzero : q.denominator.toInt ≠ 0 := by
      have two := canonical.1
      omega
    rw [reduce_of_reduce? (reduce?_eq_ofRat nonzero top bottom)]
    exact congrArg some (Number.ofRat_quotient rfl canonical)
  simp only [numberLiteral?, notWord, quotient, reduced, Option.bind_some, Except.toOption]

/-! ### Tokens -/

/-- Signs, slashes and digits are read as one atom. -/
theorem isAtomText_of_numeric {cs : List Char} (nonempty : cs ≠ [])
    (numeric : ∀ c ∈ cs, c = '-' ∨ c = '/' ∨ c.isDigit) : IsAtomText cs := by
  have inAtom : ∀ c ∈ cs, c ≠ ';' ∧ endsAtom c = false := by
    intro c member
    rcases numeric c member with rfl | rfl | digit
    · decide
    · decide
    · refine ⟨?_, ?_⟩
      · rintro rfl
        cases digit
      · by_contra ends
        simp only [endsAtom, isBlank, isParenthesis, Bool.not_eq_false, Bool.or_eq_true,
          decide_eq_true_eq] at ends
        rcases ends with ((((rfl | rfl) | rfl) | rfl) | rfl) | rfl | rfl <;> cases digit
  cases cs with
  | nil => exact absurd rfl nonempty
  | cons first rest =>
    exact ⟨(inAtom first List.mem_cons_self).1, fun c member => (inAtom c member).2⟩

/-- A literal of a number denotes the number, before anything else is tried. -/
theorem Token.classify_of_numberLiteral? {text : String} {value : Number}
    (found : numberLiteral? text.toList = some value) : Token.classify text = .number value := by
  unfold classify
  rw [found]

/-- Exact numbers in canonical form are read as they are written. -/
theorem Number.legible {value : Number} (canonical : value.Canonical) (isExact : value.IsExact) :
    (Token.number value).Legible := by
  cases value with
  | float x => exact isExact.elim
  | integer n =>
    have literal : numberLiteral? (Number.integer n).text.toList = some (.integer n) := by
      rw [numberLiteral?, Number.text, wordLiteral?_toString]
    refine ⟨isAtomText_of_numeric (toString_int_ne_nil n.toInt) ?_,
      Token.classify_of_numberLiteral? literal⟩
    exact fun c member => (mem_toString_int c member).imp id .inr
  | fraction q =>
    refine ⟨isAtomText_of_numeric ?_ ?_,
      Token.classify_of_numberLiteral? (numberLiteral?_fraction canonical)⟩
    · change (Number.fraction q).text.toList ≠ []
      rw [toList_fraction_text]
      exact List.append_ne_nil_of_left_ne_nil (toString_int_ne_nil _) _
    · change ∀ c ∈ (Number.fraction q).text.toList, _
      rw [toList_fraction_text, List.forall_mem_append, List.forall_mem_cons]
      exact ⟨fun c member => (mem_toString_int c member).imp id .inr, .inr (.inl rfl),
        fun c member => (mem_toString_int c member).imp id .inr⟩

/-- Only numbers are written in another way than they are read. -/
theorem Token.text_classify {text : String}
    (notNumber : ∀ value, Token.classify text ≠ .number value) :
    (Token.classify text).text = text := by
  unfold classify at notNumber ⊢
  split
  case h_1 value found =>
    rw [found] at notNumber
    exact absurd rfl (notNumber value)
  · split
    case h_1 word found => exact Keyword.spelling_of_ofSpelling? found
    · unfold classifyWord
      split
      case isTrue isTrue => exact isTrue.symm
      · split
        case isTrue isFalse => exact isFalse.symm
        · split <;> rfl

/-- What a text denotes is denoted by its written form as well, unless it is a floating-point
number. -/
theorem Token.classify_text_classify {text : String} (isExact : (Token.classify text).IsExact) :
    Token.classify (Token.classify text).text = Token.classify text := by
  by_cases number : ∃ value, Token.classify text = .number value
  · obtain ⟨value, denoted⟩ := number
    rw [denoted] at isExact ⊢
    exact (Number.legible (numberLiteral?_canonical (classify_eq_number denoted)) isExact).reads
  · rw [Token.text_classify fun value denoted => number ⟨value, denoted⟩]

/-- What an atom denotes is read as it is written, unless it is a floating-point number. -/
theorem Token.legible_classify {text : String} (isAtom : IsAtomText text.toList)
    (isExact : (Token.classify text).IsExact) : (Token.classify text).Legible := by
  refine ⟨?_, classify_text_classify isExact⟩
  by_cases number : ∃ value, Token.classify text = .number value
  · obtain ⟨value, denoted⟩ := number
    rw [denoted] at isExact ⊢
    exact (Number.legible (numberLiteral?_canonical (classify_eq_number denoted)) isExact).isAtom
  · rwa [Token.text_classify fun value denoted => number ⟨value, denoted⟩]

/-- The tokens of a program that was read are legible, but for floating-point numbers. -/
theorem legible_of_readProgram {source : String} {program : List Node}
    (read : readProgram source = .ok program) :
    ∀ node ∈ program, ∀ token ∈ node.leaves, token.IsExact → token.Legible :=
  leaves_readProgram (fun _ _ member => Token.legible_classify (isAtomText_of_mem_lexemes member))
    read

end SubstLisp
