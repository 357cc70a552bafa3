import Mathlib.Data.List.TakeWhile
import SubstLisp.Proofs.Reading.Balance
import SubstLisp.Proofs.Reading.Joining
import SubstLisp.Text.Whitespace

/-! # Blanks around a text

Blanks before a text move what is read from it, and blanks behind it have no effect, be it that a
comment is still open there. So a text without the whitespace around it is read as before, up to
spans, if all this whitespace is blanks (`SubstLisp.readProgram_trim`).
-/

namespace SubstLisp

namespace Scanner

/-- A blank may end an atom, but it changes no lexeme. -/
theorem latestFirst_step_blank (scanner : Scanner) {c : Char} (blank : isBlank c) :
    (scanner.step c).latestFirst = scanner.latestFirst := by
  obtain ⟨offset, finished, pending⟩ := scanner
  cases pending with
  | gap =>
    rw [step, start_blank blank]
    rfl
  | comment =>
    by_cases lineBreak : c = '\n'
    · simp only [step, lineBreak, ↓reduceIte, latestFirst]
    · simp only [step, lineBreak, ↓reduceIte, latestFirst]
  | atom first letters =>
    have ends : endsAtom c = true := by simp [endsAtom, blank]
    simp only [step, ends, ↓reduceIte]
    rw [start_blank blank]
    rfl

/-- Blanks at the end add no lexeme. -/
theorem latestFirst_run_blanks {cs : List Char} (blanks : ∀ c ∈ cs, isBlank c)
    (scanner : Scanner) : (scanner.run cs).latestFirst = scanner.latestFirst := by
  induction cs generalizing scanner with
  | nil => rfl
  | cons c rest ih =>
    rw [List.forall_mem_cons] at blanks
    rw [run_cons, ih blanks.2, latestFirst_step_blank scanner blanks.1]

/-- A scan that has met only blanks has nothing to remember but how many. -/
theorem run_initial_blanks {cs : List Char} (blanks : ∀ c ∈ cs, isBlank c) (distance : Nat) :
    (initial.behind distance []).run cs =
      initial.behind (distance + (String.ofList cs).utf8ByteSize) [] := by
  induction cs generalizing distance with
  | nil => rfl
  | cons c rest ih =>
    rw [List.forall_mem_cons] at blanks
    have stepped : (initial.behind distance []).step c =
        initial.behind (distance + c.utf8Size) [] := by
      rw [step_behind, step, initial, start_blank blanks.1]
      simp [behind, Pending.shift, Nat.add_comm]
    rw [run_cons, stepped, ih blanks.2, utf8ByteSize_ofList_cons, Nat.add_assoc]

end Scanner

/-- The lexemes of a text between blanks. -/
theorem lexemesOf_between_blanks {before after : List Char} (leading : ∀ c ∈ before, isBlank c)
    (trailing : ∀ c ∈ after, isBlank c) (cs : List Char) :
    lexemesOf (before ++ cs ++ after) =
      (lexemesOf cs).map
        (Lexeme.mapSpan (Span.shift (String.ofList before).utf8ByteSize)) := by
  have started := Scanner.run_initial_blanks leading 0
  rw [Nat.zero_add] at started
  have scanned : Scanner.initial.run before =
      Scanner.initial.behind (String.ofList before).utf8ByteSize [] := started
  rw [lexemesOf, Scanner.run_append, Scanner.latestFirst_run_blanks trailing, Scanner.run_append,
    scanned, Scanner.run_behind, Scanner.latestFirst_behind, List.append_nil, ← List.map_reverse,
    lexemesOf]

/-- Moved parentheses balance as before. -/
theorem balanceFrom_mapSpan_eq_balanced_iff (f : Span → Span) {depth : Nat}
    {lexemes : List Lexeme} :
    balanceFrom depth (lexemes.map (Lexeme.mapSpan f)) = .balanced ↔
      balanceFrom depth lexemes = .balanced := by
  fun_induction balanceFrom depth lexemes with
  | case1 => exact Iff.rfl
  | case2 depth open_ => simp [balanceFrom, open_]
  | case3 depth span rest ih => exact ih
  | case4 span rest => exact iff_of_false Balance.noConfusion Balance.noConfusion
  | case5 span rest outer ih => exact ih
  | case6 depth text span rest ih => exact ih

/-- What can be read from moved lexemes can be read from the lexemes themselves. -/
theorem readProgram_of_lexemes_eq_map {source other : String} {distance : Nat}
    (same : lexemes source = (lexemes other).map (Lexeme.mapSpan (Span.shift distance)))
    {program : List Node} (read : readProgram source = .ok program) :
    ∃ original, readProgram other = .ok original ∧
      program = original.map (Node.mapSpans (Span.shift distance)) := by
  have balanced : balance other = .balanced := by
    have whole : balance source = .balanced := readProgram_isOk_iff_balance.mp ⟨program, read⟩
    rwa [balance, same, balanceFrom_mapSpan_eq_balanced_iff] at whole
  obtain ⟨original, found⟩ := readProgram_isOk_iff_balance.mpr balanced
  have moved : readAll (Reader.ofLexemes (lexemes source)).stop (lexemes source) =
      .ok (original.map (Node.mapSpans (Span.shift distance))) := by
    rw [same]
    exact readAll_mapSpans found _ (Span.shift_merge distance)
  exact ⟨original, found, Except.ok.inj (read.symm.trans moved)⟩

/-! ### Trimming -/

/-- Only whitespace is trimmed from the end of a text. -/
theorem exists_eq_append_trimEnd (cs : List Char) :
    ∃ after, cs = trimEnd cs ++ after ∧ ∀ c ∈ after, isWhitespace c := by
  refine ⟨(cs.reverse.takeWhile isWhitespace).reverse, ?_, ?_⟩
  · rw [trimEnd, ← List.reverse_append, List.takeWhile_append_dropWhile, List.reverse_reverse]
  · exact fun c member => List.mem_takeWhile_imp (List.mem_reverse.mp member)

/-- Trimming takes whitespace away at both ends. -/
theorem exists_eq_append_trim (cs : List Char) :
    ∃ before after, cs = before ++ trim cs ++ after ∧ (∀ c ∈ before, isWhitespace c) ∧
      ∀ c ∈ after, isWhitespace c := by
  obtain ⟨after, split, trailing⟩ := exists_eq_append_trimEnd (cs.dropWhile isWhitespace)
  refine ⟨cs.takeWhile isWhitespace, after, ?_, fun c => List.mem_takeWhile_imp, trailing⟩
  rw [trim, List.append_assoc, ← split, List.takeWhile_append_dropWhile]

/-- A text is read as before without the blanks around it, up to spans. -/
theorem readProgram_trim {cs : List Char} (blanks : ∀ c ∈ cs, isWhitespace c → isBlank c)
    {program : List Node} (read : readProgram (String.ofList cs) = .ok program) :
    ∃ original distance, readProgram (String.ofList (trim cs)) = .ok original ∧
      program = original.map (Node.mapSpans (Span.shift distance)) := by
  obtain ⟨before, after, split, leading, trailing⟩ := exists_eq_append_trim cs
  have blanksBefore : ∀ c ∈ before, isBlank c := by
    refine fun c member => blanks c ?_ (leading c member)
    rw [split, List.append_assoc]
    exact List.mem_append_left _ member
  have blanksAfter : ∀ c ∈ after, isBlank c := by
    refine fun c member => blanks c ?_ (trailing c member)
    rw [split]
    exact List.mem_append_right _ member
  have same := lexemesOf_between_blanks blanksBefore blanksAfter (trim cs)
  rw [← split] at same
  have moved : lexemes (String.ofList cs) = (lexemes (String.ofList (trim cs))).map
      (Lexeme.mapSpan (Span.shift (String.ofList before).utf8ByteSize)) := by
    rwa [lexemes, lexemes, String.toList_ofList, String.toList_ofList]
  obtain ⟨original, found, equal⟩ := readProgram_of_lexemes_eq_map moved read
  exact ⟨original, _, found, equal⟩

end SubstLisp
