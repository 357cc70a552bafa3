import Mathlib.Data.List.TakeWhile
import SubstLisp.Proofs.Reading.Places

/-! # What the lexemes of a text are

The lexemes of a text can be described without a scanner: each stands where its characters are, an
atom goes as far as it can, and between lexemes there are blanks and comments only. Every text has
exactly one sequence of lexemes like that, the one that the scanner finds
(`SubstLisp.isLexing_iff`).
-/

namespace SubstLisp

/-- In a text of these characters, the bytes of the span are those of `part`, and then comes
`after`. -/
def Span.CoversBefore (span : Span) (text part after : List Char) : Prop :=
  ∃ before, text = before ++ part ++ after ∧
    span.start = (String.ofList before).utf8ByteSize ∧
    span.stop = (String.ofList (before ++ part)).utf8ByteSize

/-- Characters between lexemes: blanks and comments. A comment goes on to the end of its line, which
may be that of the text. -/
inductive IsGap (after : List Char) : List Char → Prop where
  | nil : IsGap after []
  | blank (c : Char) (gap : List Char) (isBlank : isBlank c) (rest : IsGap after gap) :
      IsGap after (c :: gap)
  | comment (line gap : List Char) (inLine : '\n' ∉ line)
      (ends : ∀ c ∈ (gap ++ after).head?, c = '\n') (rest : IsGap after gap) :
      IsGap after (';' :: line ++ gap)

/-- What a lexeme asks of its own characters and those behind it. An atom may not go on there. -/
def LexemeKind.StandsBefore (after : List Char) : LexemeKind → Prop
  | .opener | .closer => True
  | .atom text => IsAtomText text.toList ∧ ∀ c ∈ after.head?, endsAtom c

/-- The parts of a text from the byte `start` to the byte `stop` that no lexeme takes up. -/
def gapsBetween (start stop : Nat) : List Lexeme → List Span
  | [] => [⟨start, stop⟩]
  | lexeme :: rest => ⟨start, lexeme.span.start⟩ :: gapsBetween lexeme.span.stop stop rest

/-- The text consists of these lexemes, with blanks and comments around them. -/
structure IsLexing (source : String) (lexemes : List Lexeme) : Prop where
  /-- Lexemes are not empty, and start and end between two characters. -/
  places : ∀ lexeme ∈ lexemes, lexeme.span.LiesIn source
  apart : lexemes.Pairwise fun earlier later => earlier.span.stop ≤ later.span.start
  stands : ∀ lexeme ∈ lexemes, ∃ after,
    lexeme.span.CoversBefore source.toList lexeme.kind.text.toList after ∧
      lexeme.kind.StandsBefore after
  gaps : ∀ gap ∈ gapsBetween 0 source.utf8ByteSize lexemes, ∃ part after,
    gap.CoversBefore source.toList part after ∧ IsGap after part

/-! ### Scanning gaps and lexemes -/

/-- Whether what is pending is over before these characters. -/
def Pending.EndsBefore (rest : List Char) : Pending → Prop
  | .gap => True
  | .comment => ∀ c ∈ rest.head?, c = '\n'
  | .atom _ _ => ∀ c ∈ rest.head?, endsAtom c

namespace Scanner

/-- The scan once what is pending is over. -/
def settled (scanner : Scanner) : Scanner where
  offset := scanner.offset
  finished := scanner.latestFirst
  pending := .gap

/-- What is pending may be finished early if the next characters end it anyway. -/
theorem latestFirst_run_settled (scanner : Scanner) {rest : List Char}
    (ends : scanner.pending.EndsBefore rest) :
    (scanner.run rest).latestFirst = (scanner.settled.run rest).latestFirst := by
  cases rest with
  | nil => rfl
  | cons c rest =>
    have same : scanner.step c = scanner.settled.step c := by
      obtain ⟨offset, finished, pending⟩ := scanner
      cases pending with
      | gap => rfl
      | comment =>
        obtain rfl : c = '\n' := ends c rfl
        rw [step_lineBreak, step_lineBreak]
        rfl
      | atom first letters =>
        have ender : endsAtom c = true := ends c rfl
        simp only [step, ender, ↓reduceIte]
        rfl
    rw [run_cons, run_cons, same]

/-- A comment takes up the rest of its line. -/
theorem run_comment {line : List Char} (inLine : '\n' ∉ line) (offset : Nat)
    (finished : List Lexeme) :
    run ⟨offset, finished, .comment⟩ line =
      ⟨offset + (String.ofList line).utf8ByteSize, finished, .comment⟩ := by
  induction line generalizing offset with
  | nil => rfl
  | cons c rest ih =>
    rw [List.mem_cons, not_or] at inLine
    rw [run_cons, step]
    simp only [Ne.symm inLine.1, ↓reduceIte]
    rw [ih inLine.2, utf8ByteSize_ofList_cons, Nat.add_assoc]

/-- There are no lexemes in a gap. -/
theorem latestFirst_run_gap {gap after : List Char} (isGap : IsGap after gap) (offset : Nat)
    (finished : List Lexeme) :
    (run ⟨offset, finished, .gap⟩ (gap ++ after)).latestFirst =
      (run ⟨offset + (String.ofList gap).utf8ByteSize, finished, .gap⟩ after).latestFirst := by
  induction isGap generalizing offset with
  | nil => rfl
  | blank c gap isBlank rest ih =>
    rw [List.cons_append, run_cons, step, start_blank isBlank, ih,
      utf8ByteSize_ofList_cons, Nat.add_assoc]
  | comment line gap inLine ends rest ih =>
    have ran : run ⟨offset, finished, .gap⟩ (';' :: line) =
        ⟨offset + (String.ofList (';' :: line)).utf8ByteSize, finished, .comment⟩ := by
      have started : step ⟨offset, finished, .gap⟩ ';' =
          ⟨offset + ';'.utf8Size, finished, .comment⟩ := rfl
      rw [run_cons, started, run_comment inLine, utf8ByteSize_ofList_cons, Nat.add_assoc]
    rw [List.append_assoc, run_append, ran,
      latestFirst_run_settled ⟨_, finished, .comment⟩ ends]
    rw [utf8ByteSize_ofList_append, ← Nat.add_assoc]
    exact ih _

/-- A lexeme that stands before some characters is found, and then these are scanned. -/
theorem latestFirst_run_lexeme {kind : LexemeKind} {rest : List Char}
    (stands : kind.StandsBefore rest) (offset : Nat) (finished : List Lexeme) :
    (run ⟨offset, finished, .gap⟩ (kind.text.toList ++ rest)).latestFirst =
      (run ⟨offset + kind.text.utf8ByteSize,
        ⟨kind, ⟨offset, offset + kind.text.utf8ByteSize⟩⟩ :: finished, .gap⟩ rest).latestFirst := by
  cases kind with
  | opener => rfl
  | closer => rfl
  | atom text =>
    obtain ⟨isAtom, ends⟩ := stands
    have settles : settled ⟨offset + (String.ofList text.toList).utf8ByteSize, finished,
        .atom offset text.toList.reverse⟩ =
        ⟨offset + text.utf8ByteSize,
          ⟨.atom text, ⟨offset, offset + text.utf8ByteSize⟩⟩ :: finished, .gap⟩ := by
      simp only [settled, latestFirst, List.reverse_reverse, String.ofList_toList]
    rw [run_append, LexemeKind.text, run_atomText isAtom,
      latestFirst_run_settled ⟨_, finished, .atom offset _⟩ ends, settles]

end Scanner

/-! ### Lexeme by lexeme -/

/-- The characters from the byte `offset` on consist of these lexemes. -/
inductive Laid : (offset : Nat) → List Char → List Lexeme → Prop where
  | last (offset : Nat) (gap : List Char) (isGap : IsGap [] gap) : Laid offset gap []
  | next (offset start stop : Nat) (gap rest : List Char) (kind : LexemeKind)
      (lexemes : List Lexeme) (isGap : IsGap (kind.text.toList ++ rest) gap)
      (stands : kind.StandsBefore rest)
      (startEq : start = offset + (String.ofList gap).utf8ByteSize)
      (stopEq : stop = start + kind.text.utf8ByteSize) (later : Laid stop rest lexemes) :
      Laid offset (gap ++ (kind.text.toList ++ rest)) (⟨kind, ⟨start, stop⟩⟩ :: lexemes)

namespace Laid

/-- A scan finds the lexemes that characters consist of. -/
theorem latestFirst_run {offset : Nat} {cs : List Char} {lexemes : List Lexeme}
    (laid : Laid offset cs lexemes) (finished : List Lexeme) :
    (Scanner.run ⟨offset, finished, .gap⟩ cs).latestFirst = lexemes.reverse ++ finished := by
  induction laid generalizing finished with
  | last offset gap isGap =>
    have scanned := Scanner.latestFirst_run_gap isGap offset finished
    rwa [List.append_nil] at scanned
  | next offset start stop gap rest kind lexemes isGap stands startEq stopEq later ih =>
    subst startEq stopEq
    rw [Scanner.latestFirst_run_gap isGap, Scanner.latestFirst_run_lexeme stands, ih,
      List.reverse_cons, List.append_assoc]
    rfl

/-- Only the lexemes that the scanner finds can be laid on a text. -/
theorem eq_lexemesOf {cs : List Char} {lexemes : List Lexeme} (laid : Laid 0 cs lexemes) :
    lexemes = lexemesOf cs := by
  have scanned := laid.latestFirst_run []
  rw [List.append_nil] at scanned
  rw [lexemesOf, Scanner.initial, scanned, List.reverse_reverse]

end Laid

/-- Characters that belong neither to a gap nor to what comes before them. -/
def StartsLexeme (cs : List Char) : Prop :=
  ∀ c ∈ cs.head?, isBlank c = false ∧ c ≠ ';'

/-- Every text starts with a gap, be it empty; and so does what follows the start of a comment, once
the comment is over. -/
theorem exists_gap (cs : List Char) :
    (∃ gap rest, cs = gap ++ rest ∧ IsGap rest gap ∧ StartsLexeme rest) ∧
    ∃ line gap rest, cs = line ++ (gap ++ rest) ∧ '\n' ∉ line ∧
      (∀ c ∈ (gap ++ rest).head?, c = '\n') ∧ IsGap rest gap ∧ StartsLexeme rest := by
  induction cs with
  | nil =>
    have atEnd : StartsLexeme [] := nofun
    exact ⟨⟨[], [], rfl, .nil, atEnd⟩, [], [], [], rfl, List.not_mem_nil, nofun, .nil, atEnd⟩
  | cons c cs ih =>
    obtain ⟨⟨gap, rest, split, isGap, starts⟩, line, further, last, splitLine, inLine, ends,
      isFurther, startsLast⟩ := ih
    refine ⟨?_, ?_⟩
    · by_cases blank : isBlank c
      · exact ⟨c :: gap, rest, congrArg _ split, .blank c gap blank isGap, starts⟩
      · by_cases comment : c = ';'
        · subst comment
          refine ⟨';' :: line ++ further, last, ?_, .comment line further inLine ends isFurther,
            startsLast⟩
          rw [splitLine]
          simp
        · refine ⟨[], c :: cs, rfl, .nil, ?_⟩
          rintro other ⟨⟩
          exact ⟨by simpa using blank, comment⟩
    · by_cases lineBreak : c = '\n'
      · subst lineBreak
        refine ⟨[], '\n' :: gap, rest, congrArg _ split, List.not_mem_nil, ?_,
          .blank '\n' gap rfl isGap, starts⟩
        rintro other ⟨⟩
        rfl
      · refine ⟨c :: line, further, last, congrArg _ splitLine, ?_, ends, isFurther, startsLast⟩
        exact List.not_mem_cons_of_ne_of_not_mem (Ne.symm lineBreak) inLine

/-- Where a lexeme starts there is one, and it takes up at least a character. -/
theorem exists_lexeme {c : Char} {cs : List Char} (starts : StartsLexeme (c :: cs)) :
    ∃ (kind : LexemeKind) (rest : List Char), c :: cs = kind.text.toList ++ rest ∧
      kind.StandsBefore rest ∧ rest.length ≤ cs.length := by
  obtain ⟨blank, comment⟩ := starts c rfl
  by_cases opener : c = '('
  · exact ⟨.opener, cs, by rw [opener]; rfl, trivial, Nat.le_refl _⟩
  · by_cases closer : c = ')'
    · exact ⟨.closer, cs, by rw [closer]; rfl, trivial, Nat.le_refl _⟩
    · have first : endsAtom c = false := by
        simp [endsAtom, isParenthesis, opener, closer, blank]
      let inAtom := fun letter => !endsAtom letter
      refine ⟨.atom (String.ofList (c :: cs.takeWhile inAtom)), cs.dropWhile inAtom, ?_, ⟨?_, ?_⟩,
        List.length_dropWhile_le _ _⟩
      · rw [LexemeKind.text, String.toList_ofList, List.cons_append,
          List.takeWhile_append_dropWhile]
      · rw [String.toList_ofList]
        refine ⟨comment, List.forall_mem_cons.mpr ⟨first, fun letter member => ?_⟩⟩
        simpa [inAtom] using List.mem_takeWhile_imp member
      · intro letter next
        have stopped := List.head?_dropWhile_not inAtom cs
        rw [Option.mem_def.mp next] at stopped
        simpa [inAtom] using stopped

/-- Every text consists of lexemes. -/
theorem exists_laid (cs : List Char) (offset : Nat) : ∃ lexemes, Laid offset cs lexemes := by
  -- What is left behind the first lexeme is shorter.
  induction total : cs.length using Nat.strong_induction_on generalizing cs offset with
  | _ size ih =>
    obtain ⟨gap, rest, rfl, isGap, starts⟩ := (exists_gap cs).1
    cases rest with
    | nil =>
      rw [List.append_nil]
      exact ⟨[], .last offset gap isGap⟩
    | cons c tail =>
      obtain ⟨kind, rest, split, stands, shorter⟩ := exists_lexeme starts
      rw [split] at isGap
      have less : rest.length < size := by
        rw [← total, List.length_append, List.length_cons]
        omega
      let start := offset + (String.ofList gap).utf8ByteSize
      obtain ⟨lexemes, later⟩ := ih rest.length less rest (start + kind.text.utf8ByteSize) rfl
      rw [split]
      exact ⟨_, .next offset start _ gap rest kind lexemes isGap stands rfl rfl later⟩

/-- The lexemes that the scanner finds are laid on the text. -/
theorem laid_lexemes (source : String) : Laid 0 source.toList (lexemes source) := by
  obtain ⟨found, laid⟩ := exists_laid source.toList 0
  rwa [laid.eq_lexemesOf] at laid

/-! ### Places and gaps -/

/-- A part of a text has the span from its first byte up to the first one behind it. -/
theorem Span.coversBefore_append {before part : List Char} {start stop : Nat}
    (startEq : start = (String.ofList before).utf8ByteSize)
    (stopEq : stop = start + (String.ofList part).utf8ByteSize) (after : List Char) :
    Span.CoversBefore ⟨start, stop⟩ (before ++ (part ++ after)) part after := by
  refine ⟨before, (List.append_assoc _ _ _).symm, startEq, ?_⟩
  rw [utf8ByteSize_ofList_append, ← startEq, stopEq]

/-- Lexemes and gaps stand where their characters do. -/
theorem Laid.describes {offset : Nat} {cs : List Char} {lexemes : List Lexeme}
    (laid : Laid offset cs lexemes) (before : List Char)
    (offsetEq : offset = (String.ofList before).utf8ByteSize) :
    (∀ lexeme ∈ lexemes, ∃ after,
      lexeme.span.CoversBefore (before ++ cs) lexeme.kind.text.toList after ∧
        lexeme.kind.StandsBefore after) ∧
    ∀ gap ∈ gapsBetween offset (String.ofList (before ++ cs)).utf8ByteSize lexemes,
      ∃ part after, gap.CoversBefore (before ++ cs) part after ∧ IsGap after part := by
  induction laid generalizing before with
  | last offset gap isGap =>
    have covers : Span.CoversBefore ⟨offset, _⟩ (before ++ (gap ++ [])) gap [] :=
      Span.coversBefore_append offsetEq rfl []
    rw [List.append_nil, offsetEq, ← utf8ByteSize_ofList_append, ← offsetEq] at covers
    exact ⟨fun _ => List.not_mem_nil.elim, List.forall_mem_singleton.mpr ⟨gap, [], covers, isGap⟩⟩
  | next offset start stop gap rest kind lexemes isGap stands startEq stopEq later ih =>
    have behindGap : start = (String.ofList (before ++ gap)).utf8ByteSize := by
      rw [utf8ByteSize_ofList_append, ← offsetEq, startEq]
    have length : stop = start + (String.ofList kind.text.toList).utf8ByteSize := by
      rw [String.ofList_toList, stopEq]
    have behindLexeme : stop =
        (String.ofList (before ++ gap ++ kind.text.toList)).utf8ByteSize := by
      rw [utf8ByteSize_ofList_append, ← behindGap, length]
    have atGap := Span.coversBefore_append offsetEq startEq (kind.text.toList ++ rest)
    have atLexeme := Span.coversBefore_append behindGap length rest
    obtain ⟨others, gaps⟩ := ih _ behindLexeme
    simp only [List.append_assoc] at atLexeme others gaps
    exact ⟨List.forall_mem_cons.mpr ⟨⟨rest, atLexeme, stands⟩, others⟩,
      List.forall_mem_cons.mpr ⟨⟨gap, _, atGap, isGap⟩, gaps⟩⟩

/-- Characters that a span covers from the end of others on are those that follow them. -/
theorem Span.CoversBefore.eq_append {span : Span} {text before cs part after : List Char}
    (covers : span.CoversBefore text part after) (split : text = before ++ cs)
    (startEq : span.start = (String.ofList before).utf8ByteSize) :
    cs = part ++ after ∧ span.stop = (String.ofList (before ++ part)).utf8ByteSize := by
  obtain ⟨own, whole, ownStart, ownStop⟩ := covers
  rw [split, List.append_assoc] at whole
  obtain ⟨rfl, rest⟩ := append_inj_of_utf8ByteSize whole (startEq.symm.trans ownStart)
  exact ⟨rest, ownStop⟩

/-- A description of all lexemes and gaps is one of the lexemes one by one. -/
theorem laid_of_describes {text before cs : List Char} {start : Nat} {lexemes : List Lexeme}
    (split : text = before ++ cs) (startEq : start = (String.ofList before).utf8ByteSize)
    (stands : ∀ lexeme ∈ lexemes, ∃ after,
      lexeme.span.CoversBefore text lexeme.kind.text.toList after ∧
        lexeme.kind.StandsBefore after)
    (gaps : ∀ gap ∈ gapsBetween start (String.ofList text).utf8ByteSize lexemes,
      ∃ part after, gap.CoversBefore text part after ∧ IsGap after part) :
    Laid start cs lexemes := by
  induction lexemes generalizing before cs start with
  | nil =>
    rw [gapsBetween, List.forall_mem_singleton] at gaps
    obtain ⟨part, after, covers, isGap⟩ := gaps
    obtain ⟨rfl, stop⟩ := covers.eq_append split startEq
    rw [split, ← List.append_assoc] at stop
    obtain rfl := eq_nil_of_utf8ByteSize_append stop
    rw [List.append_nil]
    exact .last start part isGap
  | cons lexeme rest ih =>
    rw [gapsBetween, List.forall_mem_cons] at gaps
    rw [List.forall_mem_cons] at stands
    obtain ⟨⟨part, behindGap, gapCovers, isGap⟩, gaps⟩ := gaps
    obtain ⟨⟨after, covers, ends⟩, stands⟩ := stands
    obtain ⟨rfl, gapStop⟩ := gapCovers.eq_append split startEq
    rw [← List.append_assoc] at split
    obtain ⟨rfl, stop⟩ := covers.eq_append split gapStop
    rw [← List.append_assoc] at split
    refine .next start _ _ part after lexeme.kind rest isGap ends ?_ ?_ (ih split stop stands gaps)
    · rw [startEq, ← utf8ByteSize_ofList_append]
      exact gapStop
    · rw [stop, utf8ByteSize_ofList_append, String.ofList_toList]
      exact congrArg (· + _) gapStop.symm

/-- **Every text has exactly one lexing**, and the scanner finds it. -/
theorem isLexing_iff (source : String) (found : List Lexeme) :
    IsLexing source found ↔ found = lexemes source := by
  constructor
  · intro isLexing
    have laid : Laid 0 source.toList found := by
      refine laid_of_describes (List.nil_append _).symm rfl isLexing.stands ?_
      rw [String.ofList_toList]
      exact isLexing.gaps
    exact laid.eq_lexemesOf
  · rintro rfl
    obtain ⟨stands, gaps⟩ := (laid_lexemes source).describes [] rfl
    rw [List.nil_append] at stands gaps
    rw [String.ofList_toList] at gaps
    exact ⟨fun _ => liesIn_of_mem_lexemes, (lexemes_stand source).2, stands, gaps⟩

end SubstLisp
