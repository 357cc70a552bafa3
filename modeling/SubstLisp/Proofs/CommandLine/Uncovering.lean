import Mathlib.Data.List.Induction
import SubstLisp.Proofs.CommandLine.Reads
import SubstLisp.Proofs.Evaluation.Spanless
import SubstLisp.Proofs.Reading.Continuing
import SubstLisp.Proofs.Reading.Lexing

/-! # Comments that trimming uncovers

A dialogue looks whether what it has read is balanced, and then interprets it without the whitespace
around it. Some whitespace is no blank but part of an atom, and a semicolon that goes on with this
atom does not start a comment. Without the whitespace it does, and the parentheses on its line are
gone. So a balanced text can be read without the whitespace around it unless a comment is uncovered
in this way, and then if and only if the parentheses on its line balance
(`SubstLisp.trimmed_reads_iff`).
-/

namespace SubstLisp

/-- The text starts with whitespace that ends inside an atom, and then a semicolon goes on with this
atom. Up to the end of this line the text is `head`. -/
def UncoversComment (cs head : List Char) : Prop :=
  ∃ before last line rest, cs = head ++ rest ∧ head = before ++ last :: ';' :: line ∧
    (∀ c ∈ before ++ [last], isWhitespace c) ∧ isBlank last = false ∧ '\n' ∉ line ∧
    ∀ c ∈ rest.head?, c = '\n'

/-! ### Parentheses alone -/

/-- The parentheses among some lexemes, wherever they stand. -/
def parenthesesOf (lexemes : List Lexeme) : List Lexeme :=
  (lexemes.filter (·.kind.isParenthesis)).map (Lexeme.mapSpan fun _ => .nowhere)

/-- Whether parentheses balance depends on nothing but the parentheses. -/
theorem balanceFrom_parenthesesOf_iff (depth : Nat) (lexemes : List Lexeme) :
    balanceFrom depth (parenthesesOf lexemes) = .balanced ↔
      balanceFrom depth lexemes = .balanced := by
  rw [parenthesesOf, balanceFrom_mapSpan_eq_balanced_iff, balanceFrom_filter_isParenthesis]

theorem parenthesesOf_reverse (lexemes : List Lexeme) :
    parenthesesOf lexemes.reverse = (parenthesesOf lexemes).reverse := by
  rw [parenthesesOf, List.filter_reverse, List.map_reverse]
  rfl

namespace Scanner

/-- The parentheses read so far, the latest one first. -/
def parentheses (scanner : Scanner) : List Lexeme :=
  parenthesesOf scanner.latestFirst

/-- The same parentheses have been read, and the next character belongs to the same kind of thing,
although atoms may differ. -/
inductive Alike : Scanner → Scanner → Prop where
  | gap {offset other : Nat} {left right : List Lexeme}
      (same : parenthesesOf left = parenthesesOf right) :
      Alike ⟨offset, left, .gap⟩ ⟨other, right, .gap⟩
  | comment {offset other : Nat} {left right : List Lexeme}
      (same : parenthesesOf left = parenthesesOf right) :
      Alike ⟨offset, left, .comment⟩ ⟨other, right, .comment⟩
  | atom {offset other first start : Nat} {left right : List Lexeme} {letters others : List Char}
      (same : parenthesesOf left = parenthesesOf right) :
      Alike ⟨offset, left, .atom first letters⟩ ⟨other, right, .atom start others⟩

variable {s t : Scanner}

/-- Scanners that are alike have seen the same parentheses. -/
theorem Alike.parentheses_eq (alike : s.Alike t) : s.parentheses = t.parentheses := by
  cases alike with
  | gap same => exact same
  | comment same => exact same
  | atom same => exact same

/-- Scanners that have seen the same parentheses go on alike with the same character. -/
theorem Alike.start {left right : List Lexeme} (same : parenthesesOf left = parenthesesOf right)
    (offset other : Nat) (c : Char) :
    (Scanner.start offset left c).Alike (Scanner.start other right c) := by
  have longer : ∀ kind : LexemeKind, ∀ here there : Span,
      parenthesesOf (⟨kind, here⟩ :: left) = parenthesesOf (⟨kind, there⟩ :: right) := by
    intro kind here there
    cases kind with
    | opener => exact congrArg (⟨.opener, .nowhere⟩ :: ·) same
    | closer => exact congrArg (⟨.closer, .nowhere⟩ :: ·) same
    | atom text => exact same
  unfold Scanner.start
  split
  · exact .gap (longer _ _ _)
  · split
    · exact .gap (longer _ _ _)
    · split
      · exact .comment same
      · split
        · exact .gap same
        · exact .atom same

theorem Alike.step (alike : s.Alike t) (c : Char) : (s.step c).Alike (t.step c) := by
  cases alike with
  | gap same => exact .start same _ _ c
  | comment same =>
    by_cases lineBreak : c = '\n'
    · simp only [Scanner.step, lineBreak, ↓reduceIte]
      exact .gap same
    · simp only [Scanner.step, lineBreak, ↓reduceIte]
      exact .comment same
  | atom same =>
    by_cases ends : endsAtom c
    · simp only [Scanner.step, ends, ↓reduceIte]
      refine .start ?_ _ _ c
      exact same
    · simp only [Scanner.step, ends, Bool.false_eq_true, ↓reduceIte]
      exact .atom same

/-- Scanners that are alike stay so with the same characters. -/
theorem Alike.run (alike : s.Alike t) (cs : List Char) : (s.run cs).Alike (t.run cs) := by
  induction cs generalizing s t with
  | nil => exact alike
  | cons c rest ih => exact ih (alike.step c)

/-- Characters that are no parentheses add none. -/
theorem parentheses_run {cs : List Char} (plain : ∀ c ∈ cs, isParenthesis c = false)
    (scanner : Scanner) : (scanner.run cs).parentheses = scanner.parentheses := by
  induction cs generalizing scanner with
  | nil => rfl
  | cons c rest ih =>
    rw [List.forall_mem_cons] at plain
    rw [run_cons, ih plain.2, parentheses, parentheses]
    have reads := scanner.step_reads c
    generalize scanner.latestFirst = before, (scanner.step c).latestFirst = after at reads ⊢
    cases reads with
    | skips => rfl
    | opens _ opener =>
      rw [opener] at plain
      cases plain.1
    | closes _ closer =>
      rw [closer] at plain
      cases plain.1
    | begins => rfl
    | continues => rfl

end Scanner

/-- Texts with the same parentheses balance alike. -/
theorem balance_iff_of_parentheses_eq {left right : List Char}
    (same : (Scanner.initial.run left).parentheses = (Scanner.initial.run right).parentheses) :
    balance (String.ofList left) = .balanced ↔ balance (String.ofList right) = .balanced := by
  rw [Scanner.parentheses, Scanner.parentheses] at same
  rw [balance, balance, ← balanceFrom_parenthesesOf_iff 0 (lexemes (String.ofList left)),
    ← balanceFrom_parenthesesOf_iff 0 (lexemes (String.ofList right)), lexemes, lexemes,
    String.toList_ofList, String.toList_ofList, lexemesOf, lexemesOf, parenthesesOf_reverse,
    parenthesesOf_reverse, same]

/-! ### Whitespace around a text -/

/-- Whitespace is neither a parenthesis nor a semicolon. -/
theorem not_parenthesis_of_isWhitespace {c : Char} (whitespace : isWhitespace c) :
    isParenthesis c = false ∧ c ≠ ';' := by
  constructor
  · simp only [isParenthesis, Bool.or_eq_false_iff, decide_eq_false_iff_not]
    constructor
    · rintro rfl
      cases whitespace
    · rintro rfl
      cases whitespace
  · rintro rfl
    cases whitespace

/-- Whitespace at the end of a text does not matter for its parentheses. -/
theorem balance_trimEnd_iff (cs : List Char) :
    balance (String.ofList (trimEnd cs)) = .balanced ↔ balance (String.ofList cs) = .balanced := by
  obtain ⟨after, split, whitespace⟩ := exists_eq_append_trimEnd cs
  refine balance_iff_of_parentheses_eq ?_
  conv_rhs => rw [split, Scanner.run_append]
  exact (Scanner.parentheses_run
    (fun c member => (not_parenthesis_of_isWhitespace (whitespace c member)).1) _).symm

/-- A blank ends an atom, and after it nothing is pending. -/
theorem Scanner.pending_step_blank {scanner : Scanner} (notComment : scanner.pending ≠ .comment)
    {c : Char} (blank : isBlank c) : (scanner.step c).pending = .gap := by
  obtain ⟨offset, finished, pending⟩ := scanner
  cases pending with
  | gap => rw [step, start_blank blank]
  | comment => exact absurd rfl notComment
  | atom first letters =>
    have ends : endsAtom c = true := by simp [endsAtom, blank]
    simp only [step, ends, ↓reduceIte]
    rw [start_blank blank]

/-- A letter starts an atom or goes on with one. -/
theorem Scanner.pending_step_letter {scanner : Scanner} (notComment : scanner.pending ≠ .comment)
    {c : Char} (comment : c ≠ ';') (inAtom : endsAtom c = false) :
    ∃ first letters, (scanner.step c).pending = .atom first letters := by
  obtain ⟨offset, finished, pending⟩ := scanner
  cases pending with
  | gap =>
    simp only [endsAtom, isParenthesis, Bool.or_eq_false_iff, decide_eq_false_iff_not] at inAtom
    refine ⟨offset, [c], ?_⟩
    simp only [step, start, inAtom, comment, Bool.false_eq_true, ↓reduceIte]
  | comment => exact absurd rfl notComment
  | atom first letters =>
    refine ⟨first, c :: letters, ?_⟩
    simp only [step, inAtom, Bool.false_eq_true, ↓reduceIte]

/-- Behind whitespace, a scan is inside an atom only if the last character is no blank. -/
theorem pending_run_whitespace {before : List Char} (whitespace : ∀ c ∈ before, isWhitespace c) :
    (Scanner.initial.run before).pending = .gap ∨
      ∃ earlier last first letters, before = earlier ++ [last] ∧ isBlank last = false ∧
        (Scanner.initial.run before).pending = .atom first letters := by
  induction before using List.reverseRecOn with
  | nil => exact .inl rfl
  | append_singleton earlier c ih =>
    rw [List.forall_mem_append, List.forall_mem_singleton] at whitespace
    obtain ⟨parenthesis, comment⟩ := not_parenthesis_of_isWhitespace whitespace.2
    have notComment : (Scanner.initial.run earlier).pending ≠ .comment := by
      intro pending
      obtain gap | ⟨_, _, _, _, _, _, atom⟩ := ih whitespace.1
      · cases pending.symm.trans gap
      · cases pending.symm.trans atom
    rw [Scanner.run_append, Scanner.run_cons, Scanner.run_nil]
    by_cases blank : isBlank c
    · exact .inl (Scanner.pending_step_blank notComment blank)
    · rw [Bool.not_eq_true] at blank
      have inAtom : endsAtom c = false := by rw [endsAtom, blank, parenthesis, Bool.or_false]
      obtain ⟨first, letters, pending⟩ := Scanner.pending_step_letter notComment comment inAtom
      exact .inr ⟨earlier, c, first, letters, rfl, blank, pending⟩

/-- Whitespace before a text matters for its parentheses only if it ends inside an atom and the text
starts with a semicolon. -/
theorem balance_append_iff_of_whitespace {before cs : List Char}
    (whitespace : ∀ c ∈ before, isWhitespace c)
    (covers : (Scanner.initial.run before).pending = .gap ∨ cs.head? ≠ some ';') :
    balance (String.ofList (before ++ cs)) = .balanced ↔
      balance (String.ofList cs) = .balanced := by
  have nothing : (Scanner.initial.run before).parentheses = [] :=
    Scanner.parentheses_run
      (fun c member => (not_parenthesis_of_isWhitespace (whitespace c member)).1) _
  have pending := pending_run_whitespace whitespace
  refine balance_iff_of_parentheses_eq ?_
  rw [Scanner.run_append]
  generalize Scanner.initial.run before = scanner at nothing pending covers ⊢
  cases cs with
  | nil => exact nothing
  | cons c rest =>
    refine Scanner.Alike.parentheses_eq (Scanner.Alike.run ?_ rest)
    obtain ⟨offset, finished, pending⟩ := scanner
    obtain gap | ⟨_, _, first, letters, _, _, atom⟩ := pending
    · subst gap
      refine .start ?_ _ _ c
      exact nothing
    · subst atom
      obtain gap | notComment := covers
      · cases gap
      · by_cases ends : endsAtom c
        · simp only [Scanner.step, ends, ↓reduceIte]
          refine .start ?_ _ _ c
          exact nothing
        · have inAtom := ends
          simp only [endsAtom, isParenthesis, Bool.or_eq_true, not_or, decide_eq_true_eq] at inAtom
          have comment : c ≠ ';' := fun same => notComment (congrArg some same)
          simp only [Scanner.step, Scanner.initial, Scanner.start, ends, inAtom, comment,
            Bool.false_eq_true, ↓reduceIte]
          exact .atom nothing

/-! ### Comments -/

/-- A line that is a comment has no lexemes. -/
theorem lexemes_comment {line : List Char} (inLine : '\n' ∉ line) :
    lexemes (String.ofList (';' :: line)) = [] := by
  rw [lexemes, String.toList_ofList, lexemesOf, Scanner.run_cons]
  exact congrArg (List.reverse ∘ Scanner.latestFirst) (Scanner.run_comment inLine 1 [])

/-- If a balanced text uncovers a comment when whitespace is taken away before it, what is left is
balanced if and only if the line of the comment was. -/
theorem UncoversComment.balance_iff {cs head : List Char} (uncovers : UncoversComment cs head)
    (balanced : balance (String.ofList cs) = .balanced) :
    balance (String.ofList (cs.dropWhile isWhitespace)) = .balanced ↔
      balance (String.ofList head) = .balanced := by
  obtain ⟨before, last, line, rest, rfl, whole, whitespace, -, inLine, ends⟩ := uncovers
  have left : (head ++ rest).dropWhile isWhitespace = ';' :: line ++ rest := by
    rw [whole, List.append_cons, List.append_assoc, List.dropWhile_append_of_pos whitespace]
    rfl
  rw [left]
  cases rest with
  | nil =>
    rw [List.append_nil] at balanced ⊢
    rw [balance, lexemes_comment inLine]
    exact iff_of_true rfl balanced
  | cons c rest =>
    obtain rfl := ends c rfl
    have commented : balance (String.ofList (';' :: line)) = .balanced := by
      rw [balance, lexemes_comment inLine]
      rfl
    rw [balance_lineBreak_iff commented]
    refine ⟨fun later => ?_, fun first => (balance_lineBreak_iff first).mp balanced⟩
    rw [balance, lexemes_lineBreak, balanceFrom_eq_balanced_iff] at balanced
    rw [balance, ← balanceFrom_mapSpan_eq_balanced_iff, balanceFrom_eq_balanced_iff] at later
    rw [balance, balanceFrom_eq_balanced_iff]
    exact balanced.of_append later

/-- Behind whitespace that ends inside an atom, a semicolon is uncovered. -/
theorem exists_uncoversComment {before tail : List Char} {last : Char}
    (whitespace : ∀ c ∈ before ++ [last], isWhitespace c) (noBlank : isBlank last = false) :
    ∃ head, UncoversComment (before ++ last :: ';' :: tail) head := by
  let inLine := fun c : Char => !decide (c = '\n')
  refine ⟨before ++ last :: ';' :: tail.takeWhile inLine, before, last, tail.takeWhile inLine,
    tail.dropWhile inLine, ?_, rfl, whitespace, noBlank, ?_, ?_⟩
  · simp only [List.append_assoc, List.cons_append, List.takeWhile_append_dropWhile]
  · intro member
    simpa [inLine] using List.mem_takeWhile_imp member
  · intro c next
    have stopped := List.head?_dropWhile_not inLine tail
    rw [Option.mem_def.mp next] at stopped
    simpa [inLine] using stopped

/-- If no comment is uncovered, whitespace before a text does not matter for its parentheses. -/
theorem balance_dropWhitespace_iff {cs : List Char} (covered : ∀ head, ¬UncoversComment cs head) :
    balance (String.ofList (cs.dropWhile isWhitespace)) = .balanced ↔
      balance (String.ofList cs) = .balanced := by
  have whitespace : ∀ c ∈ cs.takeWhile isWhitespace, isWhitespace c :=
    fun c => List.mem_takeWhile_imp
  have whole : cs.takeWhile isWhitespace ++ cs.dropWhile isWhitespace = cs :=
    List.takeWhile_append_dropWhile
  have covers : (Scanner.initial.run (cs.takeWhile isWhitespace)).pending = .gap ∨
      (cs.dropWhile isWhitespace).head? ≠ some ';' := by
    obtain gap | ⟨before, last, _, _, split, noBlank, -⟩ := pending_run_whitespace whitespace
    · exact .inl gap
    · refine .inr fun semicolon => ?_
      obtain ⟨tail, comment⟩ := List.head?_eq_some_iff.mp semicolon
      rw [split] at whitespace
      rw [split, comment, List.append_assoc, List.singleton_append] at whole
      obtain ⟨head, uncovers⟩ := exists_uncoversComment whitespace noBlank
      exact covered head (whole ▸ uncovers)
  rw [← balance_append_iff_of_whitespace whitespace covers, whole]

/-- **A balanced text can be read without the whitespace around it, unless this uncovers a comment**
on whose line the parentheses do not balance. -/
theorem trimmed_reads_iff {cs : List Char} (balanced : balance (String.ofList cs) = .balanced) :
    (∃ program, readProgram (String.ofList (trim cs)) = .ok program) ↔
      ∀ head, UncoversComment cs head → balance (String.ofList head) = .balanced := by
  rw [readProgram_isOk_iff_balance, trim, balance_trimEnd_iff]
  constructor
  · intro left head uncovers
    exact (uncovers.balance_iff balanced).mp left
  · intro lines
    by_cases uncovered : ∃ head, UncoversComment cs head
    · obtain ⟨head, uncovers⟩ := uncovered
      exact (uncovers.balance_iff balanced).mpr (lines head uncovers)
    · exact (balance_dropWhitespace_iff (not_exists.mp uncovered)).mpr balanced

/-- A vertical tab is whitespace that belongs to atoms, so a semicolon right behind it starts no
comment. Without it, there is one, which holds the opener. -/
theorem trimmed_reads_iff_behind_a_vertical_tab :
    let cs := "\x0b;(\n)".toList
    let head := "\x0b;(".toList
    balance (String.ofList cs) = .balanced ∧ UncoversComment cs head ∧
    balance (String.ofList head) = .unfinished ∧
    ¬∃ program, readProgram (String.ofList (trim cs)) = .ok program := by
  intro cs head
  have balanced : balance (String.ofList cs) = .balanced := by decide
  have unfinished : balance (String.ofList head) = .unfinished := by decide
  have uncovers : UncoversComment cs head := by
    have whitespace : ∀ c ∈ ['\x0b'], isWhitespace c := List.forall_mem_singleton.mpr rfl
    refine ⟨[], '\x0b', ['('], ['\n', ')'], rfl, rfl, whitespace, rfl, by decide, ?_⟩
    rintro c ⟨⟩
    rfl
  refine ⟨balanced, uncovers, unfinished, fun readable => ?_⟩
  have balancedLine := (trimmed_reads_iff balanced).mp readable head uncovers
  rw [unfinished] at balancedLine
  cases balancedLine

/-- So a text that is complete as it was typed may be interpreted as one with a stray closer. -/
theorem trimming_uncovers_a_comment :
    let cs := "\u00a0;(begin\n#t)".toList
    balance (String.ofList cs) = .balanced ∧
    readProgram (String.ofList (trim cs)) = .error (.unexpectedCloser ⟨10, 11⟩) := by
  intro cs
  have trimmed : trim cs = ";(begin\n#t)".toList := by decide
  have scanned : lexemes (String.ofList ";(begin\n#t)".toList) =
      [⟨.atom "#t", ⟨8, 10⟩⟩, ⟨.closer, ⟨10, 11⟩⟩] := rfl
  refine ⟨by decide, ?_⟩
  rw [trimmed]
  simp only [readProgram, scanned, Reader.all, Reader.ofLexemes, readAll, readInside]

end SubstLisp
