import SubstLisp.Proofs.Reading.Linearization
import SubstLisp.Proofs.Session.ReadBack
import SubstLisp.Proofs.Session.Spanless

/-! # Sequences and the top level

The expressions at the top level of a text are evaluated one after the other, and so are those of a
sequence, `(begin expressions)`. Both bind the same and fail in the same way. They differ in what
they return: the top level returns every value, the sequence only that of its last expression
(`SubstLisp.sequence_answers_as_top_level`).

A text may end in a comment, so a line break keeps it apart from the closer of the sequence.
-/

namespace SubstLisp

/-- The text of a sequence of the expressions in a text. -/
def sequenceText (source : String) : String :=
  "(begin " ++ source ++ "\n)"

/-- A sequence of some expressions. -/
def Node.sequenceOf (program : List Node) : Node :=
  .list (.atom (.keyword (.special .sequence)) .nowhere :: program) .nowhere

/-- The values that an expression leaves at the top level if it has this value. -/
def Value.kept (value : Value) : List Value :=
  if value.isVoid then [] else [value]

/-- The last of some expressions has this value, and leaves this environment, where the others have
been evaluated before. If there are none, there is no value. -/
inductive EndsWith (environment : Environment) : List Node → Value → Environment → Prop where
  | nothing : EndsWith environment [] .void environment
  | last {initial : List Node} {node : Node} {values : List Value} {value : Value}
      {middle after : Environment} (earlier : Runs initial environment (.ok values, middle))
      (evaluates : Evaluates node middle (.ok value, after)) :
      EndsWith environment (initial ++ [node]) value after

/-- What expressions lead to at the top level, and what they lead to in sequence. -/
inductive Condenses (program : List Node) (environment : Environment) :
    Outcome (List Value) → Outcome Value → Prop where
  | failure (cause : EvaluationError) (after : Environment) :
      Condenses program environment (.error cause, after) (.error cause, after)
  | value {values : List Value} {value : Value} {after : Environment}
      (ends : EndsWith environment program value after) :
      Condenses program environment (.ok values, after) (.ok value, after)

/-- How the text of a sequence answers, compared with the text of its expressions: with a failure of
the same kind and with the same message, or with the last value only. -/
inductive AnswersAsSequence (program : List Node) (environment : Environment) :
    Interpretation → Interpretation → Prop where
  | failure {first second : Failure} {after last : Environment} (kind : first.kind = second.kind)
      (message : first.message = second.message) (environments : after.SameButSpans last) :
      AnswersAsSequence program environment (.error first, after) (.error second, last)
  | value {values results : List Value} {value : Value} {after last : Environment}
      (ends : EndsWith environment program value after)
      (same : value.kept.map Value.withoutSpans = results.map Value.withoutSpans)
      (environments : after.SameButSpans last) :
      AnswersAsSequence program environment (.ok values, after) (.ok results, last)

/-! ### Evaluating a sequence -/

namespace Evaluator

variable (evaluator : Evaluator)

theorem values_singleton (node : Node) :
    evaluator.values [node] = Value.kept <$> evaluator node := by
  rw [map_eq_pure_bind]
  rfl

/-- Both ways to evaluate expressions end with the last one. -/
theorem values_concat (initial : List Node) (last : Node) :
    evaluator.values (initial ++ [last]) = do
      let earlier ← evaluator.values initial
      let value ← evaluator last
      return earlier ++ value.kept := by
  simp only [values_append, values_singleton, map_eq_pure_bind, bind_assoc, pure_bind]

/-- A sequence has the value of its last expression, and evaluates the others before it. -/
theorem sequence_concat (latest : Value) (initial : List Node) (last : Node) :
    evaluator.sequence latest (initial ++ [last]) =
      evaluator.values initial >>= fun _ => evaluator last := by
  induction initial generalizing latest with
  | nil => simp only [List.nil_append, sequence, values, bind_pure, pure_bind]
  | cons node rest ih =>
    simp only [List.cons_append, sequence, values, ih, bind_assoc, pure_bind]

end Evaluator

section Evaluation

variable {program : List Node} {environment : Environment}

/-- With the same depth, expressions come to an end at the top level if and only if they do so in
sequence. -/
theorem condenses (depth : Nat) (program : List Node) (environment : Environment) :
    Option.Rel (Condenses program environment)
      (((evaluate depth).values program).runIn environment)
      (((evaluate depth).sequence .void program).runIn environment) := by
  obtain rfl | ⟨initial, last, rfl⟩ := List.eq_nil_or_concat' program
  · exact .some (.value .nothing)
  · rw [Evaluator.values_concat, Evaluator.sequence_concat, Evaluation.runIn_bind,
      Evaluation.runIn_bind]
    cases first : ((evaluate depth).values initial).runIn environment with
    | none => exact .none
    | some outcome =>
      obtain ⟨cause | values, middle⟩ := outcome
      · exact .some (.failure cause middle)
      · simp only [Evaluation.runIn_bind]
        cases second : (evaluate depth last).runIn middle with
        | none => exact .none
        | some outcome =>
          obtain ⟨cause | value, after⟩ := outcome
          · exact .some (.failure cause after)
          · exact .some (.value (.last ⟨depth, first⟩ ⟨depth, second⟩))

/-- A sequence at the top level leaves the value that its expressions have in sequence. -/
theorem runIn_values_sequenceOf (depth : Nat) (program : List Node) (environment : Environment) :
    ((evaluate (depth + 2)).values [.sequenceOf program]).runIn environment =
      (((evaluate (depth + 1)).sequence .void program).runIn environment).map
        fun single => (single.1.map Value.kept, single.2) := by
  rw [Evaluator.values_singleton, map_eq_pure_bind, Evaluation.runIn_bind, Node.sequenceOf,
    evaluate_special, Evaluator.special]
  cases ((evaluate (depth + 1)).sequence .void program).runIn environment with
  | none => rfl
  | some outcome => obtain ⟨cause | value, after⟩ := outcome <;> rfl

/-- A program that runs does so as one sequence, with its last value alone. -/
theorem Runs.sequenceOf {alone : Outcome (List Value)} (runs : Runs program environment alone) :
    ∃ single, Condenses program environment alone single ∧
      Runs [.sequenceOf program] environment (single.1.map Value.kept, single.2) := by
  obtain ⟨depth, ran⟩ := runs
  have deeper : ((evaluate (depth + 1)).values program).runIn environment = some alone :=
    (evaluate_approximates_succ depth).values program environment alone ran
  have together := condenses (depth + 1) program environment
  rw [deeper] at together
  cases sequence : ((evaluate (depth + 1)).sequence .void program).runIn environment with
  | none =>
    rw [sequence] at together
    cases together
  | some single =>
    rw [sequence] at together
    cases together with
    | some related =>
      refine ⟨single, related, depth + 2, ?_⟩
      rw [runIn_values_sequenceOf, sequence, Option.map_some]

/-- A sequence that runs does so as a program, with the value of the sequence as its last one. -/
theorem Runs.of_sequenceOf {whole : Outcome (List Value)}
    (runs : Runs [.sequenceOf program] environment whole) :
    ∃ alone single, Runs program environment alone ∧ Condenses program environment alone single ∧
      whole = (single.1.map Value.kept, single.2) := by
  obtain ⟨depth, ran⟩ := runs
  have deeper : ((evaluate (depth + 2)).values [.sequenceOf program]).runIn environment =
      some whole :=
    (evaluate_approximates_of_le (Nat.le_add_right depth 2)).values _ environment whole ran
  rw [runIn_values_sequenceOf, Option.map_eq_some_iff] at deeper
  obtain ⟨single, sequence, same⟩ := deeper
  have together := condenses (depth + 1) program environment
  rw [sequence] at together
  cases values : ((evaluate (depth + 1)).values program).runIn environment with
  | none =>
    rw [values] at together
    cases together
  | some alone =>
    rw [values] at together
    cases together with
    | some related => exact ⟨alone, single, ⟨depth + 1, values⟩, related, same.symm⟩

/-- Up to spans, the answer of a sequence is that of its expressions, condensed. -/
theorem Condenses.answers {alone : Outcome (List Value)} {single : Outcome Value}
    {whole : Interpretation} (condenses : Condenses program environment alone single)
    (answers : AnswersSameButSpans ((single.1.map Value.kept).mapError .evaluation) whole.1)
    (environments : single.2.SameButSpans whole.2) :
    AnswersAsSequence program environment alone.interpretation whole := by
  obtain ⟨result, last⟩ := whole
  cases condenses with
  | failure cause after =>
    cases answers with
    | failure kind message => exact .failure kind message environments
  | value ends =>
    cases answers with
    | values same => exact .value ends same environments

end Evaluation

/-! ### Reading the text of a sequence -/

theorem lexemes_sequenceText (source : String) :
    lexemes (sequenceText source) =
      [⟨.opener, ⟨0, 1⟩⟩, ⟨.atom "begin", ⟨1, 6⟩⟩] ++
        (lexemes source).map (Lexeme.mapSpan (Span.shift 7)) ++
        [⟨.closer, ⟨source.utf8ByteSize + 8, source.utf8ByteSize + 9⟩⟩] := by
  have started : Scanner.initial.run "(begin ".toList =
      Scanner.initial.behind 7 [⟨.atom "begin", ⟨1, 6⟩⟩, ⟨.opener, ⟨0, 1⟩⟩] := by decide
  have before : lexemes ("(begin " ++ source) =
      [⟨.opener, ⟨0, 1⟩⟩, ⟨.atom "begin", ⟨1, 6⟩⟩] ++
        (lexemes source).map (Lexeme.mapSpan (Span.shift 7)) := by
    rw [lexemes, lexemesOf, String.toList_append, Scanner.run_append, started, Scanner.run_behind,
      Scanner.latestFirst_behind, List.reverse_append, ← List.map_reverse]
    rfl
  have behind : lexemes ")" = [⟨.closer, ⟨0, 1⟩⟩] := by decide
  have size : ("(begin " ++ source).utf8ByteSize = source.utf8ByteSize + 7 := by
    rw [String.utf8ByteSize_append, Nat.add_comm]
    rfl
  have split : sequenceText source = "(begin " ++ source ++ "\n" ++ ")" := by
    have together : "\n)" = "\n" ++ ")" := rfl
    rw [sequenceText, together, String.append_assoc, String.append_assoc, String.append_assoc]
  rw [split, lexemes_join, before, behind, size]
  simp only [List.map_cons, List.map_nil, Lexeme.mapSpan, Span.shift]
  congr 4 <;> omega

/-- The text of a sequence is read as the sequence, up to spans. -/
theorem readProgram_sequenceText {source : String} {program : List Node}
    (read : readProgram source = .ok program) :
    ∃ whole, readProgram (sequenceText source) = .ok whole ∧
      whole.map Node.withoutSpans = [Node.sequenceOf program].map Node.withoutSpans := by
  refine readProgram_of_bare_pieces ?_
  have begins : (Lexeme.mk (.atom "begin") ⟨1, 6⟩).piece.bare =
      .atom (.keyword (.special .sequence)) .nowhere := rfl
  have inside := congrArg (List.map Piece.bare) (pieces_readProgram read)
  rw [lexemes_sequenceText]
  simp only [List.map_append, List.map_cons, List.map_nil, List.map_map, begins, Node.piecesAll,
    Node.pieces, Node.sequenceOf, List.append_nil, inside, List.cons_append, List.nil_append]
  refine congrArg _ (congrArg _ (congrArg (· ++ _) (List.map_congr_left fun lexeme _ => ?_)))
  obtain ⟨kind, span⟩ := lexeme
  cases kind <;> rfl

/-- **A sequence answers as the top level does.** If a text can be read, the text of the sequence of
its expressions comes to an end if and only if the text itself does. Up to spans it leaves the same
environment. It fails if and only if the text does, with a failure of the same kind and the same
message, and otherwise it returns the value of the last expression, if that has one. -/
theorem sequence_answers_as_top_level {source : String} {program : List Node}
    (read : readProgram source = .ok program) (environment : Environment) :
    (∀ alone, Interprets source environment alone →
      ∃ whole, Interprets (sequenceText source) environment whole ∧
        AnswersAsSequence program environment alone whole) ∧
    ∀ whole, Interprets (sequenceText source) environment whole →
      ∃ alone, Interprets source environment alone ∧
        AnswersAsSequence program environment alone whole := by
  obtain ⟨written, readWhole, same⟩ := readProgram_sequenceText read
  refine ⟨?_, ?_⟩
  · intro alone interprets
    obtain ⟨outcome, runs, rfl⟩ := (interprets_iff_runs read).mp interprets
    obtain ⟨single, condensed, runsSequence⟩ := runs.sequenceOf
    obtain ⟨other, runsOther, results, environments⟩ :=
      runsSequence.sameButSpans same.symm (.refl environment)
    exact ⟨other.interpretation, (interprets_iff_runs readWhole).mpr ⟨other, runsOther, rfl⟩,
      condensed.answers (.of_results results) environments⟩
  · intro whole interprets
    obtain ⟨outcome, runs, rfl⟩ := (interprets_iff_runs readWhole).mp interprets
    obtain ⟨other, runsSequence, results, environments⟩ :=
      runs.sameButSpans same (.refl environment)
    obtain ⟨alone, single, runsAlone, condensed, rfl⟩ := runsSequence.of_sequenceOf
    refine ⟨alone.interpretation, (interprets_iff_runs read).mpr ⟨alone, runsAlone, rfl⟩, ?_⟩
    exact condensed.answers (AnswersSameButSpans.of_results results).symm environments.symm

/-- A text that ends in a comment and whose last expression has no value. -/
theorem sequence_answers_as_top_level_before_a_comment :
    let source := "#t (define x #f) ;x"
    let program : List Node := [
      .atom (.boolean true) ⟨0, 2⟩,
      .list [.atom (.keyword (.special .definition)) ⟨4, 10⟩, .atom (.identifier "x") ⟨11, 12⟩,
        .atom (.boolean false) ⟨13, 15⟩] ⟨3, 16⟩]
    let alone : Interpretation :=
      (.ok [.token (.boolean true)], Environment.standard.define "x" (.token (.boolean false)))
    readProgram source = .ok program ∧ Interprets source .standard alone ∧
    ∃ whole, Interprets (sequenceText source) .standard whole ∧
      AnswersAsSequence program .standard alone whole := by
  intro source program alone
  have read : readProgram source = .ok program := by
    have scanned : lexemes source =
        [⟨.atom "#t", ⟨0, 2⟩⟩, ⟨.opener, ⟨3, 4⟩⟩, ⟨.atom "define", ⟨4, 10⟩⟩, ⟨.atom "x", ⟨11, 12⟩⟩,
          ⟨.atom "#f", ⟨13, 15⟩⟩, ⟨.closer, ⟨15, 16⟩⟩] := by decide
    refine readProgram_of_pieces ?_
    rw [scanned]
    rfl
  have interprets : Interprets source .standard alone :=
    (interprets_iff_runs read).mpr ⟨_, ⟨2, rfl⟩, rfl⟩
  exact ⟨read, interprets, (sequence_answers_as_top_level read .standard).1 alone interprets⟩

end SubstLisp
