import SubstLisp.Proofs.Evaluation.Programs
import SubstLisp.Session

/-! # Histories of sessions

A session starts in the standard environment and interprets one text after the other. Texts that
fail belong to its history like those that do not: the next text is interpreted in whatever
environment they left.
-/

namespace SubstLisp

/-- Interpreting a text in an environment comes to an end, and leads to an interpretation. -/
def Interprets (source : String) (environment : Environment) (interpretation : Interpretation) :
    Prop :=
  ∃ depth, interpret depth source environment = some interpretation

/-- The texts a session has interpreted and what came of each, the first one first, and the
environment in which it goes on. -/
inductive Session : List (String × Except Failure (List Value)) → Environment → Prop where
  | start : Session [] .standard
  | next {history : List (String × Except Failure (List Value))} {environment : Environment}
      {source : String} {interpretation : Interpretation} (earlier : Session history environment)
      (interprets : Interprets source environment interpretation) :
      Session (history ++ [(source, interpretation.1)]) interpretation.2

def Outcome.interpretation (outcome : Outcome (List Value)) : Interpretation :=
  (outcome.1.mapError .evaluation, outcome.2)

/-- A text is interpreted by evaluating the expressions it holds. -/
theorem interpret_of_readProgram {source : String} {program : List Node}
    (read : readProgram source = .ok program) (depth : Nat) (environment : Environment) :
    interpret depth source environment =
      (((evaluate depth).values program).runIn environment).map Outcome.interpretation := by
  simp only [interpret, read]
  cases ((evaluate depth).values program).runIn environment <;> rfl

/-- To interpret a text that is read is to run its program. -/
theorem interprets_iff_runs {source : String} {program : List Node}
    (read : readProgram source = .ok program) {environment : Environment}
    {interpretation : Interpretation} :
    Interprets source environment interpretation ↔
      ∃ outcome, Runs program environment outcome ∧ outcome.interpretation = interpretation := by
  constructor
  · intro interprets
    obtain ⟨depth, ran⟩ := interprets
    rw [interpret_of_readProgram read, Option.map_eq_some_iff] at ran
    obtain ⟨outcome, evaluated, same⟩ := ran
    exact ⟨outcome, ⟨depth, evaluated⟩, same⟩
  · intro runs
    obtain ⟨outcome, ⟨depth, evaluated⟩, same⟩ := runs
    refine ⟨depth, ?_⟩
    rw [interpret_of_readProgram read, evaluated, Option.map_some, same]

/-- A text that cannot be read is interpreted at once, and binds nothing. -/
theorem Interprets.of_readProgram_error {source : String} {cause : ReadError}
    (read : readProgram source = .error cause) {environment : Environment}
    {interpretation : Interpretation} (interprets : Interprets source environment interpretation) :
    interpretation = (.error (.reading cause), environment) := by
  obtain ⟨depth, ran⟩ := interprets
  rw [interpret, read] at ran
  exact (Option.some.inj ran).symm

/-- A text that leaves values has a program that leaves them. -/
theorem Interprets.exists_runs_of_ok {source : String} {environment after : Environment}
    {values : List Value} (interprets : Interprets source environment (.ok values, after)) :
    ∃ program, readProgram source = .ok program ∧
      Runs program environment (.ok values, after) := by
  cases read : readProgram source with
  | error cause => cases interprets.of_readProgram_error read
  | ok program =>
    obtain ⟨⟨result, last⟩, runs, same⟩ := (interprets_iff_runs read).mp interprets
    cases result with
    | error cause => cases same
    | ok found =>
      cases same
      exact ⟨program, rfl, runs⟩

/-- More depth keeps every interpretation. -/
theorem interpret_of_le {fewer more : Nat} (le : fewer ≤ more) {source : String}
    {environment : Environment} {interpretation : Interpretation}
    (ran : interpret fewer source environment = some interpretation) :
    interpret more source environment = some interpretation := by
  cases read : readProgram source with
  | error cause =>
    rw [interpret, read] at ran ⊢
    exact ran
  | ok program =>
    rw [interpret_of_readProgram read, Option.map_eq_some_iff] at ran ⊢
    obtain ⟨outcome, evaluated, same⟩ := ran
    have better := (evaluate_approximates_of_le le).values program
    exact ⟨outcome, better environment outcome evaluated, same⟩

/-- A text has at most one interpretation in an environment. -/
theorem Interprets.unique {source : String} {environment : Environment}
    {left right : Interpretation} (first : Interprets source environment left)
    (second : Interprets source environment right) : left = right := by
  obtain ⟨depth, ranLeft⟩ := first
  obtain ⟨other, ranRight⟩ := second
  have atMost := interpret_of_le (Nat.le_max_left depth other) ranLeft
  have atMostRight := interpret_of_le (Nat.le_max_right depth other) ranRight
  exact Option.some.inj (atMost.symm.trans atMostRight)

/-- What every interpretation keeps is true of a session, and of all results on the way. -/
theorem Session.invariant {P : Environment → Prop} {Q : Except Failure (List Value) → Prop}
    (start : P .standard)
    (next : ∀ {source environment interpretation}, Interprets source environment interpretation →
      P environment → Q interpretation.1 ∧ P interpretation.2)
    {history : List (String × Except Failure (List Value))} {environment : Environment}
    (session : Session history environment) : P environment ∧ ∀ entry ∈ history, Q entry.2 := by
  induction session with
  | start => exact ⟨start, fun _ member => nomatch member⟩
  | next earlier interprets ih =>
    obtain ⟨before, results⟩ := ih
    obtain ⟨result, after⟩ := next interprets before
    refine ⟨after, ?_⟩
    rw [List.forall_mem_append, List.forall_mem_singleton]
    exact ⟨results, result⟩

end SubstLisp
