import SubstLisp.Proofs.CommandLine.Reads
import SubstLisp.Proofs.Evaluation.Spanless
import SubstLisp.Proofs.Session.History

/-! # Dialogues compute what whole texts do

A dialogue interprets a text read by read, each read without the whitespace around it. Where the
text can be interpreted as a whole, the dialogue writes the same lines, and a prompt behind those of
each read (`SubstLisp.dialogue_writes_values`).

The spans of what the dialogue reads differ from those in the text, and so do those in what it
binds. The values agree up to spans, and so they are written the same.
-/

namespace SubstLisp

/-- Lines in chunks, and a prompt behind each chunk. -/
def promptedLines (chunks : List (List String)) : String :=
  String.join (chunks.map fun lines => String.join (lines.map (· ++ "\n")) ++ promptText)

/-- Behind the first prompt stand the first values, and then comes the next prompt. -/
theorem promptedLines_cons (values : List Value) (chunks : List (List String)) :
    promptedLines (values.map Value.text :: chunks) =
      valueLines values ++ promptText ++ promptedLines chunks := by
  rw [promptedLines, List.map_cons, String.join_cons, List.map_map]
  rfl

namespace Dialogue

/-- Submit reads one after the other to the end of the input, behind what has been
written before. -/
def answer (depth : Nat) (dialogue : Dialogue) (written : Output) :
    List (List Char) → Option Output
  | [] => some (written ++ dialogue.finish)
  | cs :: rest =>
    match dialogue with
    | .finished => some written
    | .reading environment _ => do
      let (next, output) ← submit depth environment cs
      answer depth next (written ++ output) rest

/-- A finished dialogue answers to no further read. -/
theorem answer_finished (depth : Nat) (written : Output) (reads : List (List Char)) :
    answer depth .finished written reads = some written := by
  cases reads with
  | nil => exact congrArg some written.append_none
  | cons cs rest => rfl

/-- A finished dialogue writes nothing more, whatever lines follow. -/
theorem converse_finished (depth : Nat) (written : Output) (lines : List InputLine) :
    converse depth .finished written lines = some written := by
  induction lines with
  | nil => exact congrArg some written.append_none
  | cons line rest ih =>
    change converse depth .finished (written ++ .none) rest = some written
    rw [Output.append_none, ih]

/-- Behind a submitted read, a dialogue is over or starts a new read. -/
theorem submit_eq_some {depth : Nat} {environment : Environment} {cs : List Char} {next : Dialogue}
    {output : Output} (submitted : submit depth environment cs = some (next, output)) :
    next = .finished ∨ ∃ after, next = .reading after [] := by
  rw [submit] at submitted
  by_cases blank : (trim cs).isEmpty
  · rw [if_pos blank] at submitted
    cases submitted
    exact .inr ⟨environment, rfl⟩
  · rw [if_neg blank] at submitted
    by_cases exits : asksToExit (trim cs)
    · rw [if_pos exits] at submitted
      cases submitted
      exact .inl rfl
    · rw [if_neg exits] at submitted
      obtain ⟨⟨result, after⟩, -, same⟩ := Option.bind_eq_some_iff.mp submitted
      cases same
      exact .inr ⟨after, rfl⟩

section Feed

variable {pending : List Char} {line : InputLine} (kept : backspace ∉ pending ++ line.characters)
  (depth : Nat) (environment : Environment)
include kept

/-- A line that leaves a parenthesis open is kept for the next one, and nothing is written. -/
theorem feed_of_unfinished
    (unfinished : balance (String.ofList (pending ++ line.characters)) = .unfinished) :
    feed depth (.reading environment pending) line =
      some (.reading environment (pending ++ line.characters ++ line.terminator), .none) := by
  simp only [feed, applyBackspaces_eq_self kept, unfinished]

/-- A line that closes all parentheses submits the whole read. -/
theorem feed_of_balanced
    (balanced : balance (String.ofList (pending ++ line.characters)) = .balanced) :
    feed depth (.reading environment pending) line =
      submit depth environment (pending ++ line.characters) := by
  simp only [feed, applyBackspaces_eq_self kept, balanced]

end Feed

/-- A dialogue without backspaces and stray closers submits its reads. -/
theorem converse_eq_answer {depth : Nat} {environment : Environment} {pending : List Char}
    {lines : List (List Char)} (kept : backspace ∉ pending ++ endLines lines)
    (balanced : ∀ read ∈ readsBehind pending lines, balance (String.ofList read) = .balanced)
    (written : Output) :
    converse depth (.reading environment pending) written (lines.map InputLine.ended) =
      answer depth (.reading environment []) written (readsBehind pending lines) := by
  induction lines generalizing environment pending written with
  | nil => rfl
  | cons line rest ih =>
    have keptLine : backspace ∉ pending ++ (InputLine.ended line).characters := by
      refine fun present => kept ?_
      rw [endLines_cons, ← List.append_assoc]
      exact List.mem_append_left _ present
    rw [readsBehind] at balanced ⊢
    rw [List.map_cons, converse]
    by_cases unfinished : balance (String.ofList (pending ++ line)) = .unfinished
    · have keptMore : backspace ∉ pending ++ line ++ ['\n'] ++ endLines rest := by
        simpa [endLines_cons] using kept
      simp only [if_pos unfinished] at balanced ⊢
      rw [feed_of_unfinished keptLine depth environment unfinished]
      simp only [Option.bind_eq_bind, Option.bind_some, Output.append_none]
      exact ih keptMore balanced written
    · have keptRest : backspace ∉ [] ++ endLines rest := by
        refine fun present => kept ?_
        rw [endLines_cons]
        exact List.mem_append_right _ (List.mem_append_right _ (List.mem_cons_of_mem _ present))
      simp only [if_neg unfinished, List.forall_mem_cons] at balanced ⊢
      rw [feed_of_balanced keptLine depth environment balanced.1, answer]
      change (submit depth environment (pending ++ line)).bind _ = _
      cases submitted : submit depth environment (pending ++ line) with
      | none => rfl
      | some reply =>
        obtain ⟨next, output⟩ := reply
        simp only [Option.bind_eq_bind, Option.bind_some]
        obtain rfl | ⟨after, rfl⟩ := submit_eq_some submitted
        · rw [converse_finished, answer_finished]
        · exact ih keptRest balanced.2 _

/-- What is written when a text without backspaces is fed to a dialogue is what its reads
lead to. -/
theorem transcript_eq_answer {source : String} (noReturn : '\r' ∉ source.toList)
    (ended : ∀ last ∈ source.toList.getLast?, last = '\n') (kept : backspace ∉ source.toList)
    (balanced : ∀ read ∈ reads source, balance (String.ofList read) = .balanced) (depth : Nat) :
    transcript depth source = answer depth start.1 start.2 (reads source) := by
  obtain ⟨lines, split, whole, same⟩ := exists_lines noReturn ended
  rw [← whole] at kept
  rw [same] at balanced ⊢
  rw [transcript, split]
  exact converse_eq_answer kept balanced _

/-- The empty text is the empty program. -/
theorem readProgram_nil : readProgram (String.ofList []) = .ok [] := by
  have scanned : lexemes (String.ofList []) = [] := rfl
  rw [readProgram, scanned, Reader.all, Reader.ofLexemes, readAll]

/-- A read that leaves values has them written, and a prompt behind them. -/
theorem submit_of_runs {cs : List Char} (stays : asksToExit (trim cs) = false) {program : List Node}
    (read : readProgram (String.ofList (trim cs)) = .ok program) {environment after : Environment}
    {values : List Value} (runs : Runs program environment (.ok values, after)) :
    ∃ depth, ∀ more, depth ≤ more → submit more environment cs =
      some (.reading after [], .ofStandard (valueLines values ++ promptText)) := by
  by_cases blank : (trim cs).isEmpty
  · have empty : trim cs = [] := List.isEmpty_iff.mp blank
    rw [empty, readProgram_nil] at read
    cases read
    obtain ⟨depth, ran⟩ := runs
    cases ran
    refine ⟨0, fun more _ => ?_⟩
    rw [submit, if_pos blank]
    rfl
  · obtain ⟨depth, ran⟩ := (interprets_iff_runs read).mpr ⟨_, runs, rfl⟩
    refine ⟨depth, fun more enough => ?_⟩
    rw [submit, if_neg blank, if_neg (ne_true_of_eq_false stays), interpret_of_le enough ran]
    rfl

/-- The first read of a text leaves the first of its values, and goes on with the others in an
environment that differs in spans only. -/
theorem submit_of_runs_join {cs rest : List Char} (blanks : ∀ c ∈ cs, isWhitespace c → isBlank c)
    (stays : asksToExit (trim cs) = false) (balanced : balance (String.ofList cs) = .balanced)
    {program : List Node} (read : readProgram (String.ofList (cs ++ '\n' :: rest)) = .ok program)
    {environment after : Environment} {values : List Value}
    (runs : Runs program environment (.ok values, after)) :
    ∃ first others middle later last,
      values.map Value.text = first.map Value.text ++ others.map Value.text ∧
      (∃ depth, ∀ more, depth ≤ more → submit more environment cs =
        some (.reading middle [], .ofStandard (valueLines first ++ promptText))) ∧
      readProgram (String.ofList rest) = .ok later ∧ Runs later middle (.ok others, last) := by
  obtain ⟨own, readOwn⟩ := readProgram_isOk_iff_balance.mpr balanced
  have restBalanced : balance (String.ofList rest) = .balanced :=
    (balance_lineBreak_iff balanced).mp (readProgram_isOk_iff_balance.mp ⟨program, read⟩)
  obtain ⟨later, readLater⟩ := readProgram_isOk_iff_balance.mpr restBalanced
  -- Both parts are moved: the first by trimming, the second by the bytes before it.
  have joined := readProgram_join readOwn readLater
  rw [ofList_lineBreak, read, Except.ok.injEq] at joined
  obtain ⟨trimmed, distance, readTrimmed, rfl⟩ := readProgram_trim blanks readOwn
  rw [joined] at runs
  obtain ⟨front, between, back, runsFront, runsBack, rfl⟩ := runs.of_append
  obtain ⟨first, middle, runsFirst, firstTexts, same⟩ := runsFront.of_moved (.refl _)
  obtain ⟨others, last, runsOthers, otherTexts, -⟩ := runsBack.of_moved same
  refine ⟨first, others, middle, later, last, ?_, ?_, readLater, runsOthers⟩
  · rw [List.map_append, firstTexts, otherTexts]
  · exact submit_of_runs stays readTrimmed runsFirst

/-- Reads that leave values have them written, and a prompt behind those of each read. -/
theorem answer_of_runs {reads : List (List Char)}
    (blanks : ∀ read ∈ reads, ∀ c ∈ read, isWhitespace c → isBlank c)
    (stays : ∀ read ∈ reads, asksToExit (trim read) = false)
    (balanced : ∀ read ∈ reads, balance (String.ofList read) = .balanced) {program : List Node}
    (whole : readProgram (String.ofList (endLines reads)) = .ok program)
    {environment after : Environment} {values : List Value}
    (runs : Runs program environment (.ok values, after)) :
    ∃ chunks, chunks.flatten = values.map Value.text ∧ chunks.length = reads.length ∧
      ∃ depth, ∀ more, depth ≤ more → ∀ written,
        answer more (.reading environment []) written reads =
          some (written ++ .ofStandard (promptedLines chunks ++ farewellText)) := by
  induction reads generalizing program environment values after with
  | nil =>
    have noProgram : readProgram (String.ofList (endLines [])) = .ok [] := readProgram_nil
    rw [noProgram] at whole
    cases whole
    obtain ⟨depth, ran⟩ := runs
    cases ran
    exact ⟨[], rfl, rfl, 0, fun _ _ _ => rfl⟩
  | cons cs rest ih =>
    rw [List.forall_mem_cons] at blanks stays balanced
    rw [endLines_cons] at whole
    obtain ⟨first, others, middle, later, last, split, ⟨depth, submits⟩, readLater, runsLater⟩ :=
      submit_of_runs_join blanks.1 stays.1 balanced.1 whole runs
    obtain ⟨chunks, texts, size, depthLater, answers⟩ :=
      ih blanks.2 stays.2 balanced.2 readLater runsLater
    refine ⟨first.map Value.text :: chunks, ?_, congrArg Nat.succ size, max depth depthLater, ?_⟩
    · rw [List.flatten_cons, texts, split]
    · intro more enough written
      have enoughFirst : depth ≤ more := Nat.le_trans (Nat.le_max_left _ _) enough
      have enoughLater : depthLater ≤ more := Nat.le_trans (Nat.le_max_right _ _) enough
      rw [answer, submits more enoughFirst]
      simp only [Option.bind_eq_bind, Option.bind_some]
      rw [answers more enoughLater, Output.append_assoc, Output.ofStandard_append,
        promptedLines_cons]
      simp only [String.append_assoc]

end Dialogue

/-- **A dialogue computes what the whole text does.** Take a text of lines that end in line feeds,
in which all whitespace is blanks, and of which no read asks to exit. If it leaves values, then a
dialogue that answers its reads writes the lines of these values in order, in chunks, one for each
read. There is a prompt before each read, and nothing is written to the error stream. The dialogue
that is fed with the text is such a dialogue if no backspace changes its reads. -/
theorem dialogue_writes_values {source : String} (noReturn : '\r' ∉ source.toList)
    (ended : ∀ last ∈ source.toList.getLast?, last = '\n')
    (blanks : ∀ c ∈ source.toList, isWhitespace c → isBlank c)
    (stays : ∀ read ∈ reads source, asksToExit (trim read) = false) {values : List Value}
    {after : Environment} (interprets : Interprets source .standard (.ok values, after)) :
    ∃ chunks : List (List String), chunks.flatten = values.map Value.text ∧
      chunks.length = (reads source).length ∧
      let output :=
        Output.ofStandard (bannerText ++ promptText ++ promptedLines chunks ++ farewellText)
      ∃ depth, ∀ more, depth ≤ more →
        Dialogue.answer more Dialogue.start.1 Dialogue.start.2 (reads source) = some output ∧
        (backspace ∉ source.toList → Dialogue.transcript more source = some output) := by
  obtain ⟨program, read, runs⟩ := interprets.exists_runs_of_ok
  have balanced : balance source = .balanced := readProgram_isOk_iff_balance.mp ⟨program, read⟩
  obtain ⟨whole, readsBalanced⟩ := reads_of_balanced noReturn ended balanced
  have readsBlanks : ∀ read ∈ reads source, ∀ c ∈ read, isWhitespace c → isBlank c := by
    intro read member c inside
    refine blanks c ?_
    rw [← whole]
    exact List.mem_flatMap.mpr ⟨read, member, List.mem_append_left _ inside⟩
  have readWhole : readProgram (String.ofList (endLines (reads source))) = .ok program := by
    rwa [whole, String.ofList_toList]
  obtain ⟨chunks, texts, size, depth, answers⟩ :=
    Dialogue.answer_of_runs readsBlanks stays readsBalanced readWhole runs
  refine ⟨chunks, texts, size, depth, fun more enough => ?_⟩
  have together : Dialogue.start.2 ++ .ofStandard (promptedLines chunks ++ farewellText) =
      .ofStandard (bannerText ++ promptText ++ promptedLines chunks ++ farewellText) := by
    rw [Dialogue.start, Output.ofStandard_append, ← String.append_assoc]
  have answered := answers more enough Dialogue.start.2
  rw [together] at answered
  refine ⟨answered, fun kept => ?_⟩
  rw [Dialogue.transcript_eq_answer noReturn ended kept readsBalanced]
  exact answered

/-- A definition on two lines and a comment that looks like an open list, an empty line, and two
expressions on one line. -/
theorem dialogue_writes_values_of_a_definition_on_two_lines :
    let source := "(define (f x)\n  x) ; (\n\n(f #t) f\n"
    let callee : Value := .procedure {
      parameters := [.identifier "x"]
      body := .atom (.identifier "x") ⟨16, 17⟩
      span := ⟨0, 18⟩ }
    let values : List Value := [.token (.boolean true), callee]
    '\r' ∉ source.toList ∧ (∀ last ∈ source.toList.getLast?, last = '\n') ∧
    (∀ c ∈ source.toList, isWhitespace c → isBlank c) ∧
    (∀ read ∈ reads source, asksToExit (trim read) = false) ∧
    Interprets source .standard (.ok values, Environment.standard.define "f" callee) ∧
    ∃ chunks : List (List String), chunks.flatten = ["#t", "(lambda (x) x)"] ∧
      chunks.length = 3 ∧
      let output :=
        Output.ofStandard (bannerText ++ promptText ++ promptedLines chunks ++ farewellText)
      ∃ depth, ∀ more, depth ≤ more →
        Dialogue.answer more Dialogue.start.1 Dialogue.start.2 (reads source) = some output ∧
        (backspace ∉ source.toList → Dialogue.transcript more source = some output) := by
  intro source callee values
  have noReturn : '\r' ∉ source.toList := by decide +kernel
  have ended : ∀ last ∈ source.toList.getLast?, last = '\n' := by
    have latest : source.toList.getLast? = some '\n' := by decide +kernel
    intro last member
    exact (Option.some.inj (latest.symm.trans member)).symm
  have blanks : ∀ c ∈ source.toList, isWhitespace c → isBlank c := by
    have all : source.toList.all fun c => !isWhitespace c || isBlank c := by decide +kernel
    intro c member white
    simpa only [white, Bool.not_true, Bool.false_or] using List.all_eq_true.mp all c member
  have stays : ∀ read ∈ reads source, asksToExit (trim read) = false := by decide +kernel
  have interprets : Interprets source .standard
      (.ok values, Environment.standard.define "f" callee) := by
    have scanned : lexemes source =
        [⟨.opener, ⟨0, 1⟩⟩, ⟨.atom "define", ⟨1, 7⟩⟩, ⟨.opener, ⟨8, 9⟩⟩, ⟨.atom "f", ⟨9, 10⟩⟩,
          ⟨.atom "x", ⟨11, 12⟩⟩, ⟨.closer, ⟨12, 13⟩⟩, ⟨.atom "x", ⟨16, 17⟩⟩,
          ⟨.closer, ⟨17, 18⟩⟩, ⟨.opener, ⟨24, 25⟩⟩, ⟨.atom "f", ⟨25, 26⟩⟩,
          ⟨.atom "#t", ⟨27, 29⟩⟩, ⟨.closer, ⟨29, 30⟩⟩, ⟨.atom "f", ⟨31, 32⟩⟩] := by decide +kernel
    refine ⟨4, ?_⟩
    rw [interpret]
    simp only [readProgram, scanned, Reader.all, Reader.ofLexemes, readAll, readInside]
    rfl
  have texts : values.map Value.text = ["#t", "(lambda (x) x)"] := rfl
  have size : (reads source).length = 3 := by decide +kernel
  rw [← texts, ← size]
  exact ⟨noReturn, ended, blanks, stays, interprets,
    dialogue_writes_values noReturn ended blanks stays interprets⟩

end SubstLisp
