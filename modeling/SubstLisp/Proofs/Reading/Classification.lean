import SubstLisp.Form.Token
import SubstLisp.Proofs.Number.Canonical

/-! # What a text can denote

A text denotes an identifier only if it cannot be read in any other way, and then it denotes itself.
So an identifier does not change its meaning when it is written out and read again. A number that a
text denotes is in canonical form.
-/

namespace SubstLisp

/-- A text that is read as a name, and as nothing else. -/
structure IsName (name : String) : Prop where
  reads : Token.classify name = .identifier name
  notNumber : numberLiteral? name.toList = none
  notKeyword : ∀ word : Keyword, word.spelling ≠ name
  notBoolean : ∀ value, (Token.boolean value).text ≠ name
  notString : ∀ first rest, name.toList = first :: rest → first ≠ '\'' ∧ first ≠ '"'

/-- Its name reads as itself, or its number is in canonical form. -/
def Token.WellFormed : Token → Prop
  | .identifier name => IsName name
  | .number value => value.Canonical
  | .string _ | .boolean _ | .keyword _ => True

/-- A text that is no keyword is no keyword's spelling. -/
theorem Keyword.spelling_ne_of_ofSpelling? {text : String}
    (absent : Keyword.ofSpelling? text = none) (word : Keyword) : word.spelling ≠ text := by
  intro spelled
  rw [← spelled, Keyword.ofSpelling?_spelling] at absent
  cases absent

/-- An identifier comes from its own name, which is no boolean and no string. -/
theorem Token.classifyWord_eq_identifier {text name : String}
    (same : Token.classifyWord text = .identifier name) :
    text = name ∧ (∀ value, (Token.boolean value).text ≠ text) ∧
      ∀ first rest, text.toList = first :: rest → first ≠ '\'' ∧ first ≠ '"' := by
  unfold classifyWord at same
  split at same
  · cases same
  case isFalse notTrue =>
    split at same
    · cases same
    case isFalse notFalse =>
      split at same
      · cases same
      · cases same
      case h_3 notApostrophe notQuote =>
        cases same
        refine ⟨rfl, ?_, ?_⟩
        · intro value equal
          cases value with
          | false => exact notFalse equal.symm
          | true => exact notTrue equal.symm
        · intro first rest written
          refine ⟨?_, ?_⟩
          · intro apostrophe
            rw [apostrophe] at written
            exact notApostrophe rest written
          · intro quote
            rw [quote] at written
            exact notQuote rest written

/-- An identifier is its own text, and the text has nothing else to denote. -/
theorem Token.classify_eq_identifier {text name : String}
    (same : Token.classify text = .identifier name) : text = name ∧ IsName name := by
  have whole := same
  unfold classify at same
  split at same
  · cases same
  case h_2 notNumber =>
    split at same
    · cases same
    case h_2 absent =>
      obtain ⟨rfl, notBoolean, notString⟩ := classifyWord_eq_identifier same
      have notKeyword := Keyword.spelling_ne_of_ofSpelling? absent
      exact ⟨rfl, whole, notNumber, notKeyword, notBoolean, notString⟩

/-- The ways to read a number, in the order in which they are tried. -/
inductive IsReadAs (cs : List Char) : Number → Prop where
  | integer {n : Int64} (found : wordLiteral? cs = some n) : IsReadAs cs (.integer n)
  | quotient {numerator denominator : Int64} {value : Number}
      (found : quotientLiteral? cs = some (numerator, denominator))
      (reduced : reduce numerator.toInt denominator.toInt = some (.ok value)) : IsReadAs cs value
  | decimal {x : Float} (found : decimalLiteral? cs = some x) : IsReadAs cs (.float x)

/-- A number is read in one of three ways. -/
theorem isReadAs_of_numberLiteral? {cs : List Char} {value : Number}
    (found : numberLiteral? cs = some value) : IsReadAs cs value := by
  unfold numberLiteral? at found
  split at found
  case h_1 n isWord =>
    cases found
    exact .integer isWord
  case h_2 =>
    split at found
    case h_1 numerator denominator isQuotient =>
      refine .quotient isQuotient ?_
      obtain ⟨outcome, reduced, ok⟩ := Option.bind_eq_some_iff.mp found
      cases outcome with
      | error e => cases ok
      | ok quotient =>
        cases ok
        exact reduced
    case h_2 =>
      obtain ⟨x, isDecimal, rfl⟩ := Option.map_eq_some_iff.mp found
      exact .decimal isDecimal

/-- A number that is read is in canonical form, since quotients are reduced. -/
theorem numberLiteral?_canonical {cs : List Char} {value : Number}
    (found : numberLiteral? cs = some value) : value.Canonical := by
  cases isReadAs_of_numberLiteral? found with
  | integer _ => trivial
  | @quotient numerator denominator _ _ reduced =>
    have top := fitsWideBothWays_of_fitsWord (fitsWord_toInt numerator)
    have bottom := fitsWideBothWays_of_fitsWord (fitsWord_toInt denominator)
    exact reduce_canonical top bottom reduced
  | decimal _ => trivial

/-- A text that denotes a number is a literal of it. -/
theorem Token.classify_eq_number {text : String} {value : Number}
    (same : Token.classify text = .number value) : numberLiteral? text.toList = some value := by
  unfold classify at same
  split at same
  case h_1 found =>
    cases same
    exact found
  · split at same
    · cases same
    · unfold classifyWord at same
      split at same
      · cases same
      · split at same
        · cases same
        · split at same <;> cases same

/-- What a text denotes is well formed, whatever the text. -/
theorem Token.classify_wellFormed (text : String) : (Token.classify text).WellFormed := by
  cases denoted : Token.classify text with
  | identifier name => exact (classify_eq_identifier denoted).2
  | number value => exact numberLiteral?_canonical (classify_eq_number denoted)
  | _ => trivial

end SubstLisp
