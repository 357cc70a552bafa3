import SubstLisp.Proofs.Evaluation.Relocation
import SubstLisp.Proofs.Reading.Joining
import SubstLisp.Proofs.Session.History

/-! # Interpreting a text in two parts

Interpreting two texts one after the other comes to the same as interpreting them as one, with a
line break between them (`SubstLisp.interprets_join`). Only the spans differ: those that come from
the second text are further on in the joined one.

To say which spans come from the second text, spans are marked: those of the environment with even
numbers, those of the second text with odd ones. Evaluation hands the marks on to its outcome. The
outcome of the second text by itself is the marked one without its marks, and the outcome in the
joined text is the marked one with the spans moved that bear the second mark.
-/

namespace SubstLisp

namespace Span

/-- The mark of what was there before. -/
def ofEarlier (span : Span) : Span where
  start := 2 * span.start
  stop := 2 * span.stop

/-- The mark of what comes from the second text. -/
def ofLater (span : Span) : Span where
  start := 2 * span.start + 1
  stop := 2 * span.stop + 1

def unmarked (span : Span) : Span where
  start := span.start / 2
  stop := span.stop / 2

/-- Move what comes from the second text, and leave the rest where it is. -/
def relocated (distance : Nat) (span : Span) : Span :=
  if span.start % 2 = 0 then span.unmarked else span.unmarked.shift distance

theorem unmarked_ofEarlier (span : Span) : span.ofEarlier.unmarked = span := by
  obtain ⟨start, stop⟩ := span
  have first : 2 * start / 2 = start := by omega
  have last : 2 * stop / 2 = stop := by omega
  simp only [ofEarlier, unmarked, first, last]

theorem unmarked_ofLater (span : Span) : span.ofLater.unmarked = span := by
  obtain ⟨start, stop⟩ := span
  have first : (2 * start + 1) / 2 = start := by omega
  have last : (2 * stop + 1) / 2 = stop := by omega
  simp only [ofLater, unmarked, first, last]

theorem relocated_ofEarlier (distance : Nat) (span : Span) :
    span.ofEarlier.relocated distance = span := by
  have even : span.ofEarlier.start % 2 = 0 := Nat.mul_mod_right 2 _
  rw [relocated, if_pos even, unmarked_ofEarlier]

/-- Spans of the later text move by the length of the earlier one. -/
theorem relocated_ofLater (distance : Nat) (span : Span) :
    span.ofLater.relocated distance = span.shift distance := by
  have odd : ¬span.ofLater.start % 2 = 0 := by
    change ¬(2 * span.start + 1) % 2 = 0
    omega
  rw [relocated, if_neg odd, unmarked_ofLater]

end Span

/-- A program with all spans moved runs like the original one. -/
theorem Runs.mapSpans (f : Span → Span) {program : List Node} {environment : Environment}
    {outcome : Outcome (List Value)} (runs : Runs program environment outcome) :
    Runs (program.map (Node.mapSpans f)) (environment.mapSpans f) (outcome.mapSpans f) := by
  obtain ⟨depth, ran⟩ := runs
  refine ⟨depth, ?_⟩
  rw [runIn_mapSpans, ran, Option.map_some]

/-- A program that comes to an end with other spans does so with its own. -/
theorem Runs.of_mapSpans {f : Span → Span} {program : List Node} {environment : Environment}
    {outcome : Outcome (List Value)}
    (runs : Runs (program.map (Node.mapSpans f)) (environment.mapSpans f) outcome) :
    ∃ original, Runs program environment original ∧ original.mapSpans f = outcome := by
  obtain ⟨depth, ran⟩ := runs
  rw [runIn_mapSpans, Option.map_eq_some_iff] at ran
  obtain ⟨original, ranOriginal, same⟩ := ran
  exact ⟨original, ⟨depth, ranOriginal⟩, same⟩

/-- What a program leads to by itself and what it leads to further on in a longer text are one
marked outcome, with the marks read in two ways. -/
theorem Runs.relocated (distance : Nat) {program : List Node} {environment : Environment}
    {outcome : Outcome (List Value)} (runs : Runs program environment outcome) :
    ∃ marked, Runs (program.map (Node.mapSpans Span.ofLater))
        (environment.mapSpans Span.ofEarlier) marked ∧
      marked.mapSpans Span.unmarked = outcome ∧
      Runs (program.map (Node.mapSpans (Span.shift distance))) environment
        (marked.mapSpans (Span.relocated distance)) := by
  have move : ∀ {g h : Span → Span}, (∀ span, g (Span.ofLater span) = h span) →
      (program.map (Node.mapSpans Span.ofLater)).map (Node.mapSpans g) =
        program.map (Node.mapSpans h) := by
    intro g h twice
    rw [List.map_map]
    exact List.map_congr_left fun node _ => node.mapSpans_mapSpans twice
  have stay : ∀ {g : Span → Span}, (∀ span, g (Span.ofEarlier span) = id span) →
      (environment.mapSpans Span.ofEarlier).mapSpans g = environment := by
    intro g twice
    rw [environment.mapSpans_mapSpans twice, environment.mapSpans_id]
  have unmarkedProgram : (program.map (Node.mapSpans Span.ofLater)).map
      (Node.mapSpans Span.unmarked) = program := by
    rw [move (h := id) Span.unmarked_ofLater, List.map_congr_left fun node _ => node.mapSpans_id,
      List.map_id']
  have unmarkedRuns : Runs ((program.map (Node.mapSpans Span.ofLater)).map
      (Node.mapSpans Span.unmarked))
      ((environment.mapSpans Span.ofEarlier).mapSpans Span.unmarked) outcome := by
    rwa [unmarkedProgram, stay Span.unmarked_ofEarlier]
  obtain ⟨marked, markedRuns, same⟩ := unmarkedRuns.of_mapSpans
  refine ⟨marked, markedRuns, same, ?_⟩
  have relocatedRuns := markedRuns.mapSpans (Span.relocated distance)
  rwa [move (Span.relocated_ofLater distance), stay (Span.relocated_ofEarlier distance)]
    at relocatedRuns

/-- **A text may be interpreted in two parts.** If the first part fails, the whole text fails in the
same way. Otherwise it goes on with what the second part leads to in the environment that the first
one leaves, up to the spans that come from the second part: these are moved by the bytes before
them. -/
theorem interprets_join {environment : Environment} {first second : String}
    {program later : List Node} (readFirst : readProgram first = .ok program)
    (readSecond : readProgram second = .ok later) :
    (∀ cause after, Interprets first environment (.error cause, after) →
      Interprets (first ++ "\n" ++ second) environment (.error cause, after)) ∧
    ∀ values middle result last, Interprets first environment (.ok values, middle) →
      Interprets second middle (result, last) →
      ∃ marked, Runs (later.map (Node.mapSpans Span.ofLater))
          (middle.mapSpans Span.ofEarlier) marked ∧
        (marked.mapSpans Span.unmarked).interpretation = (result, last) ∧
        let moved := (marked.mapSpans (Span.relocated (first.utf8ByteSize + 1))).interpretation
        Interprets (first ++ "\n" ++ second) environment (moved.1.map (values ++ ·), moved.2) := by
  have readJoined := readProgram_join readFirst readSecond
  refine ⟨?_, ?_⟩
  · intro cause after failed
    obtain ⟨⟨outcome, left⟩, runs, same⟩ := (interprets_iff_runs readFirst).mp failed
    cases outcome with
    | ok values => cases same
    | error reason =>
      exact (interprets_iff_runs readJoined).mpr ⟨_, runs_append_of_error runs, same⟩
  · intro values middle result last interpretsFirst interpretsSecond
    obtain ⟨⟨outcome, left⟩, runs, same⟩ := (interprets_iff_runs readFirst).mp interpretsFirst
    obtain ⟨alone, runsAlone, sameAlone⟩ := (interprets_iff_runs readSecond).mp interpretsSecond
    cases outcome with
    | error reason => cases same
    | ok others =>
      cases same
      obtain ⟨marked, markedRuns, unmarked, moved⟩ := runsAlone.relocated (first.utf8ByteSize + 1)
      refine ⟨marked, markedRuns, ?_, ?_⟩
      · rw [unmarked, sameAlone]
      · refine (interprets_iff_runs readJoined).mpr ⟨_, runs_append_of_ok runs moved, ?_⟩
        generalize marked.mapSpans (Span.relocated (first.utf8ByteSize + 1)) = outcome
        obtain ⟨cause | found, after⟩ := outcome
        · rfl
        · rfl

/-- A first text that ends in a comment, and one that fails, before a text that fails after it has
bound a procedure. -/
theorem interprets_join_past_a_comment :
    let environment := Environment.standard
    let truth : Value := .token (.boolean true)
    let middle := environment.define "x" truth
    let callee : Value := .procedure {
      parameters := []
      body := .atom (.identifier "x") ⟨12, 13⟩
      span := ⟨0, 14⟩ }
    let last := middle.define "f" callee
    let later : List Node := [
      .list [.atom (.keyword (.special .definition)) ⟨1, 7⟩,
        .list [.atom (.identifier "f") ⟨9, 10⟩] ⟨8, 11⟩, .atom (.identifier "x") ⟨12, 13⟩] ⟨0, 14⟩,
      .atom (.identifier "g") ⟨15, 16⟩]
    readProgram "(define (f) x) g" = .ok later ∧
    (Interprets "y" environment (.error (.evaluation (.unbound "y" ⟨0, 1⟩)), environment) ∧
      Interprets ("y" ++ "\n" ++ "(define (f) x) g") environment
        (.error (.evaluation (.unbound "y" ⟨0, 1⟩)), environment)) ∧
    Interprets "(define x #t) x ;x" environment (.ok [truth], middle) ∧
    Interprets "(define (f) x) g" middle (.error (.evaluation (.unbound "g" ⟨15, 16⟩)), last) ∧
    ∃ marked, Runs (later.map (Node.mapSpans Span.ofLater)) (middle.mapSpans Span.ofEarlier) marked ∧
      (marked.mapSpans Span.unmarked).interpretation =
        (.error (.evaluation (.unbound "g" ⟨15, 16⟩)), last) ∧
      let moved := (marked.mapSpans (Span.relocated 19)).interpretation
      Interprets ("(define x #t) x ;x" ++ "\n" ++ "(define (f) x) g") environment
        (moved.1.map ([truth] ++ ·), moved.2) := by
  intro environment truth middle callee last later
  have failing : readProgram "y" = .ok [.atom (.identifier "y") ⟨0, 1⟩] := by
    have scanned : lexemes "y" = [⟨.atom "y", ⟨0, 1⟩⟩] := rfl
    simp only [readProgram, scanned, Reader.all, Reader.ofLexemes, readAll, readInside]
    rfl
  have commented : readProgram "(define x #t) x ;x" = .ok [
      .list [.atom (.keyword (.special .definition)) ⟨1, 7⟩, .atom (.identifier "x") ⟨8, 9⟩,
        .atom (.boolean true) ⟨10, 12⟩] ⟨0, 13⟩,
      .atom (.identifier "x") ⟨14, 15⟩] := by
    have scanned : lexemes "(define x #t) x ;x" =
        [⟨.opener, ⟨0, 1⟩⟩, ⟨.atom "define", ⟨1, 7⟩⟩, ⟨.atom "x", ⟨8, 9⟩⟩, ⟨.atom "#t", ⟨10, 12⟩⟩,
          ⟨.closer, ⟨12, 13⟩⟩, ⟨.atom "x", ⟨14, 15⟩⟩] := rfl
    simp only [readProgram, scanned, Reader.all, Reader.ofLexemes, readAll, readInside]
    rfl
  have second : readProgram "(define (f) x) g" = .ok later := by
    have scanned : lexemes "(define (f) x) g" =
        [⟨.opener, ⟨0, 1⟩⟩, ⟨.atom "define", ⟨1, 7⟩⟩, ⟨.opener, ⟨8, 9⟩⟩, ⟨.atom "f", ⟨9, 10⟩⟩,
          ⟨.closer, ⟨10, 11⟩⟩, ⟨.atom "x", ⟨12, 13⟩⟩, ⟨.closer, ⟨13, 14⟩⟩,
          ⟨.atom "g", ⟨15, 16⟩⟩] := rfl
    simp only [readProgram, scanned, Reader.all, Reader.ofLexemes, readAll, readInside]
    rfl
  have fails : Interprets "y" environment
      (.error (.evaluation (.unbound "y" ⟨0, 1⟩)), environment) :=
    (interprets_iff_runs failing).mpr ⟨_, ⟨1, rfl⟩, rfl⟩
  have succeeds : Interprets "(define x #t) x ;x" environment (.ok [truth], middle) :=
    (interprets_iff_runs commented).mpr ⟨_, ⟨2, rfl⟩, rfl⟩
  have goesOn : Interprets "(define (f) x) g" middle
      (.error (.evaluation (.unbound "g" ⟨15, 16⟩)), last) :=
    (interprets_iff_runs second).mpr ⟨_, ⟨2, rfl⟩, rfl⟩
  have whole := (@interprets_join environment _ _ _ _ commented second).2
  refine ⟨second, ⟨fails, ?_⟩, succeeds, goesOn, ?_⟩
  · exact (interprets_join failing second).1 _ _ fails
  · exact whole _ _ _ _ succeeds goesOn

end SubstLisp
