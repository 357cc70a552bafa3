import SubstLisp.Evaluation.Depth

/-! # Evaluating several expressions

The expressions of a program are evaluated one after the other, and those that have a value leave
it. A program in two parts leaves the values of the first part and then those of the second
(`SubstLisp.Evaluator.values_append`), and if the first part fails, the second is left alone.
-/

namespace SubstLisp

/-- A sequence of two computations has a result only if both have one. -/
theorem Evaluation.runIn_bind_eq_ok {α β : Type} {first : Evaluation α} {second : α → Evaluation β}
    {environment after : Environment} {result : β}
    (ran : (first >>= second).runIn environment = some (.ok result, after)) :
    ∃ value middle, first.runIn environment = some (.ok value, middle) ∧
      (second value).runIn middle = some (.ok result, after) := by
  rw [runIn_bind] at ran
  cases started : first.runIn environment with
  | none =>
    rw [started] at ran
    cases ran
  | some outcome =>
    rw [started] at ran
    obtain ⟨cause | value, middle⟩ := outcome
    · cases ran
    · exact ⟨value, middle, rfl, ran⟩

namespace Evaluator

variable {evaluator : Evaluator}

/-- The values of some expressions are those of the first and those of the others. -/
theorem values_cons_eq_ok {node : Node} {rest : List Node} {environment after : Environment}
    {values : List Value}
    (ran : (evaluator.values (node :: rest)).runIn environment = some (.ok values, after)) :
    ∃ value middle others, (evaluator node).runIn environment = some (.ok value, middle) ∧
      (evaluator.values rest).runIn middle = some (.ok others, after) ∧
      values = if value.isVoid then others else value :: others := by
  rw [Evaluator.values] at ran
  obtain ⟨value, middle, first, ranRest⟩ := Evaluation.runIn_bind_eq_ok ran
  obtain ⟨others, last, later, same⟩ := Evaluation.runIn_bind_eq_ok ranRest
  cases same
  exact ⟨value, middle, others, first, later, rfl⟩

/-- None of the values that expressions leave is void. -/
theorem not_void_of_values {nodes : List Node} {environment after : Environment}
    {values : List Value}
    (ran : (evaluator.values nodes).runIn environment = some (.ok values, after)) :
    ∀ value ∈ values, value.isVoid = false := by
  induction nodes generalizing environment values with
  | nil =>
    cases ran
    simp
  | cons node rest ih =>
    obtain ⟨value, middle, others, -, later, rfl⟩ := values_cons_eq_ok ran
    have othersKept := ih later
    by_cases isVoid : value.isVoid
    · rwa [if_pos isVoid]
    · rw [if_neg isVoid, List.forall_mem_cons]
      exact ⟨by simpa using isVoid, othersKept⟩

/-- A program in two parts is evaluated part by part. -/
theorem values_append (left right : List Node) :
    evaluator.values (left ++ right) = do
      let first ← evaluator.values left
      let second ← evaluator.values right
      return first ++ second := by
  induction left with
  | nil => simp only [List.nil_append, Evaluator.values, pure_bind, bind_pure]
  | cons node rest ih =>
    simp only [List.cons_append, Evaluator.values, ih, bind_assoc, pure_bind]
    refine bind_congr fun value => bind_congr fun others => bind_congr fun later => ?_
    by_cases isVoid : value.isVoid
    · simp only [isVoid, ↓reduceIte]
    · simp only [isVoid, Bool.false_eq_true, ↓reduceIte, List.cons_append]

end Evaluator

/-- The evaluation of a program comes to an end, and leads to an outcome. -/
def Runs (program : List Node) (environment : Environment) (outcome : Outcome (List Value)) :
    Prop :=
  ∃ depth, ((evaluate depth).values program).runIn environment = some outcome

/-- What follows a failure in a program is not evaluated. -/
theorem runs_append_of_error {left right : List Node} {environment after : Environment}
    {cause : EvaluationError} (failed : Runs left environment (.error cause, after)) :
    Runs (left ++ right) environment (.error cause, after) := by
  obtain ⟨depth, ran⟩ := failed
  refine ⟨depth, ?_⟩
  rw [Evaluator.values_append, Evaluation.runIn_bind, ran]

/-- A program goes on in the environment that its first part leaves, and its values follow those of
that part. -/
theorem runs_append_of_ok {left right : List Node} {environment middle : Environment}
    {values : List Value} {outcome : Outcome (List Value)}
    (first : Runs left environment (.ok values, middle)) (second : Runs right middle outcome) :
    Runs (left ++ right) environment (outcome.1.map (values ++ ·), outcome.2) := by
  obtain ⟨depth, ranFirst⟩ := first
  obtain ⟨other, ranSecond⟩ := second
  have leftBetter := (evaluate_approximates_of_le (Nat.le_max_left depth other)).values left
  have rightBetter := (evaluate_approximates_of_le (Nat.le_max_right depth other)).values right
  refine ⟨max depth other, ?_⟩
  rw [Evaluator.values_append, Evaluation.runIn_bind, leftBetter _ _ ranFirst]
  simp only [Evaluation.runIn_bind, rightBetter _ _ ranSecond]
  obtain ⟨cause | others, last⟩ := outcome
  · rfl
  · rfl

/-- Both parts of a program that leaves values do so, one after the other. -/
theorem Runs.of_append {left right : List Node} {environment after : Environment}
    {values : List Value} (runs : Runs (left ++ right) environment (.ok values, after)) :
    ∃ first middle second, Runs left environment (.ok first, middle) ∧
      Runs right middle (.ok second, after) ∧ values = first ++ second := by
  obtain ⟨depth, ran⟩ := runs
  rw [Evaluator.values_append] at ran
  obtain ⟨first, middle, ranLeft, ranRest⟩ := Evaluation.runIn_bind_eq_ok ran
  obtain ⟨second, last, ranRight, same⟩ := Evaluation.runIn_bind_eq_ok ranRest
  cases same
  exact ⟨first, middle, second, ⟨depth, ranLeft⟩, ⟨depth, ranRight⟩, rfl⟩

end SubstLisp
