import SubstLisp.Proofs.Evaluation.Spanless
import SubstLisp.Proofs.Session.History

/-! # Sessions without spans

A session answers each text with values or with a failure, and a failure has a kind and a message.
Two sessions that go on in environments that differ in nothing but spans give the same answers up to
spans, whatever texts come next (`SubstLisp.Environment.SameButSpans.answersLike`).
-/

namespace SubstLisp

/-- The texts a session interprets from some environment on and what comes of each, the first one
first, and the environment in which it goes on. -/
inductive SessionFrom (start : Environment) :
    List (String × Except Failure (List Value)) → Environment → Prop where
  | done : SessionFrom start [] start
  | next {history : List (String × Except Failure (List Value))} {environment : Environment}
      {source : String} {interpretation : Interpretation}
      (earlier : SessionFrom start history environment)
      (interprets : Interprets source environment interpretation) :
      SessionFrom start (history ++ [(source, interpretation.1)]) interpretation.2

/-- The same values up to spans, or failures of the same kind and with the same message. -/
inductive AnswersSameButSpans :
    Except Failure (List Value) → Except Failure (List Value) → Prop where
  | values {first second : List Value}
      (same : first.map Value.withoutSpans = second.map Value.withoutSpans) :
      AnswersSameButSpans (.ok first) (.ok second)
  | failure {first second : Failure} (kind : first.kind = second.kind)
      (message : first.message = second.message) :
      AnswersSameButSpans (.error first) (.error second)

/-- It does not matter which of two answers is the first one. -/
theorem AnswersSameButSpans.symm {first second : Except Failure (List Value)}
    (answers : AnswersSameButSpans first second) : AnswersSameButSpans second first := by
  cases answers with
  | values same => exact .values same.symm
  | failure kind message => exact .failure kind.symm message.symm

/-- The same text, with the same answer up to spans. -/
structure ExchangesSameButSpans (first second : String × Except Failure (List Value)) : Prop where
  text : first.1 = second.1
  answer : AnswersSameButSpans first.2 second.2

/-- Whatever texts are interpreted from the first environment on, the second one gives the same
answers to them up to spans, and the environments that are left are the same up to spans. -/
def Environment.AnswersLike (e f : Environment) : Prop :=
  ∀ history after, SessionFrom e history after →
    ∃ other last, SessionFrom f other last ∧
      List.Forall₂ ExchangesSameButSpans history other ∧ after.SameButSpans last

/-- Outcomes that agree up to spans are reported by answers that do. -/
theorem AnswersSameButSpans.of_results {first second : Except EvaluationError (List Value)}
    (results : spanless.Results (List.Forall₂ spanless.Values) first second) :
    AnswersSameButSpans (first.mapError .evaluation) (second.mapError .evaluation) := by
  cases results with
  | ok alike =>
    refine .values ?_
    rw [← List.forall₂_eq_eq_eq, List.forall₂_map_left_iff, List.forall₂_map_right_iff]
    exact alike.imp fun _ _ => withoutSpans_of_spanless
  | error errors =>
    cases ResultsSameButSpans.of_error (errors.mapSpans_eq fun _ _ _ => rfl) with
    | failure kind message _ => exact .failure kind message

/-- A text is interpreted in the same way, up to spans, in environments that agree up to spans. -/
theorem Interprets.sameButSpans {source : String} {e f : Environment}
    {interpretation : Interpretation} (environments : e.SameButSpans f)
    (interprets : Interprets source e interpretation) :
    ∃ other, Interprets source f other ∧ AnswersSameButSpans interpretation.1 other.1 ∧
      interpretation.2.SameButSpans other.2 := by
  cases read : readProgram source with
  | error cause =>
    obtain rfl := interprets.of_readProgram_error read
    refine ⟨(.error (.reading cause), f), ⟨0, ?_⟩, .failure rfl rfl, environments⟩
    rw [interpret, read]
  | ok program =>
    obtain ⟨outcome, runs, rfl⟩ := (interprets_iff_runs read).mp interprets
    obtain ⟨other, runsOther, results, after⟩ := runs.sameButSpans rfl environments
    exact ⟨other.interpretation, (interprets_iff_runs read).mpr ⟨other, runsOther, rfl⟩,
      .of_results results, after⟩

/-- Environments that agree up to spans give the same answers up to spans, for good. -/
theorem Environment.SameButSpans.answersLike {e f : Environment} (environments : e.SameButSpans f) :
    e.AnswersLike f := by
  intro history after following
  induction following with
  | done => exact ⟨[], f, .done, .nil, environments⟩
  | @next history _ source _ _ interprets ih =>
    obtain ⟨other, last, followingOther, exchanges, same⟩ := ih
    obtain ⟨interpretation, interpretsOther, answer, sameAfter⟩ := interprets.sameButSpans same
    exact ⟨other ++ [(source, interpretation.1)], interpretation.2,
      followingOther.next interpretsOther,
      List.rel_append exchanges (.cons ⟨rfl, answer⟩ .nil), sameAfter⟩

end SubstLisp
