import SubstLisp.Evaluation.Evaluate

/-!
# More depth

An evaluation that has an outcome keeps it when it is given more depth.  So an expression has at
most one outcome in an environment, whatever depth it was found with.
-/

namespace SubstLisp

namespace Evaluator

/-- The second evaluator has the outcomes of the first, wherever that has one. -/
def Approximates (first second : Evaluator) : Prop :=
  ∀ node, (first node).Approximates (second node)

variable {first second : Evaluator}

/-- A better evaluator keeps the values of a list of expressions. -/
theorem Approximates.values (better : first.Approximates second) (nodes : List Node) :
    (first.values nodes).Approximates (second.values nodes) := by
  induction nodes with
  | nil => exact .refl _
  | cons node rest ih => exact (better node).bind fun _ => ih.bind fun _ => .refl _

theorem Approximates.sequence (better : first.Approximates second) (nodes : List Node)
    (latest : Value) :
    (first.sequence latest nodes).Approximates (second.sequence latest nodes) := by
  induction nodes generalizing latest with
  | nil => exact .refl _
  | cons node rest ih => exact (better node).bind fun value => ih value

theorem Approximates.bindable (better : first.Approximates second) (node : Node) :
    (first.bindable node).Approximates (second.bindable node) :=
  (better node).bind fun _ => .refl _

theorem Approximates.conditional (better : first.Approximates second) (operands : List Node)
    (span : Span) :
    (first.conditional operands span).Approximates (second.conditional operands span) := by
  unfold Evaluator.conditional
  split
  · refine (better _).bind fun value => ?_
    split
    · exact better _
    · exact .refl _
  · refine (better _).bind fun value => ?_
    split <;> exact better _
  · exact .refl _

/-- A better evaluator keeps the outcome of a definition, written in full or as shorthand. -/
theorem Approximates.definition (better : first.Approximates second) (operands : List Node)
    (span : Span) :
    (first.definition operands span).Approximates (second.definition operands span) := by
  unfold Evaluator.definition
  split
  · exact .refl _
  · exact (better.bindable _).bind fun _ => .refl _
  all_goals exact .refl _

theorem Approximates.assignment (better : first.Approximates second) (operands : List Node)
    (span : Span) :
    (first.assignment operands span).Approximates (second.assignment operands span) := by
  unfold Evaluator.assignment
  split
  · exact (better.bindable _).bind fun _ => .refl _
  all_goals exact .refl _

/-- A better evaluator keeps the outcome of every special form. -/
theorem Approximates.special (better : first.Approximates second) (form : SpecialForm)
    (operands : List Node) (span : Span) :
    (first.special form operands span).Approximates (second.special form operands span) := by
  cases form with
  | conditional => exact better.conditional operands span
  | definition => exact better.definition operands span
  | assignment => exact better.assignment operands span
  | abstraction => exact .refl _
  | sequence => exact better.sequence operands .void

theorem Approximates.callBuiltin (better : first.Approximates second) (builtin : Builtin)
    (operands : List Node) (span : Span) :
    (first.callBuiltin builtin operands span).Approximates
      (second.callBuiltin builtin operands span) := by
  refine .bind (.refl _) fun environment => ?_
  split
  · exact (better.values operands).bind fun _ => .refl _
  · exact .refl _

theorem Approximates.callProcedure (better : first.Approximates second) (procedure : Procedure)
    (operands : List Node) (span : Span) :
    (first.callProcedure procedure operands span).Approximates
      (second.callProcedure procedure operands span) := by
  refine (better.values operands).bind fun arguments => ?_
  split
  · exact better _
  · exact .refl _

/-- A better evaluator keeps the outcome of every combination. -/
theorem Approximates.combination (better : first.Approximates second) (operator : Node)
    (operands : List Node) (span : Span) :
    (first.combination operator operands span).Approximates
      (second.combination operator operands span) := by
  refine (better operator).bind fun value => ?_
  split
  · exact better.special _ operands span
  · exact better.callBuiltin _ operands span
  · exact better.callProcedure _ operands span
  all_goals exact .refl _

/-- One layer of evaluation keeps the outcomes that the layers inside keep. -/
theorem Approximates.evaluateWith (better : first.Approximates second) :
    Approximates (evaluateWith first) (evaluateWith second) := by
  intro node
  unfold SubstLisp.evaluateWith
  split
  case h_4 operator operands span => exact better.combination operator operands span
  all_goals exact .refl _

end Evaluator

/-- One more level of depth keeps every outcome of evaluation. -/
theorem evaluate_approximates_succ (depth : Nat) :
    (evaluate depth).Approximates (evaluate (depth + 1)) := by
  induction depth with
  | zero => exact fun _ => .exhausted _
  | succ depth ih => exact ih.evaluateWith

/-- More depth keeps every outcome. -/
theorem evaluate_approximates_of_le {fewer more : Nat} (le : fewer ≤ more) :
    (evaluate fewer).Approximates (evaluate more) := by
  induction le with
  | refl => exact fun _ => .refl _
  | step _ ih => exact fun node => (ih node).trans (evaluate_approximates_succ _ node)

/-- An expression has at most one outcome in an environment. -/
theorem Evaluates.outcome_unique {node : Node} {environment : Environment}
    {left right : Outcome Value} (first : Evaluates node environment left)
    (second : Evaluates node environment right) : left = right := by
  obtain ⟨depth, ranLeft⟩ := first
  obtain ⟨other, ranRight⟩ := second
  have atMost := evaluate_approximates_of_le (Nat.le_max_left depth other) node environment left
    ranLeft
  have atMostRight := evaluate_approximates_of_le (Nat.le_max_right depth other) node environment
    right ranRight
  exact Option.some.inj (atMost.symm.trans atMostRight)

end SubstLisp
