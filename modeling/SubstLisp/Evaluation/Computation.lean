import SubstLisp.Evaluation.Environment
import SubstLisp.Evaluation.Failure

/-!
# Computations

A computation reads and changes the environment and ends with a result or an error; what it changed
before an error stays changed.  It may also run out of depth, and then it has no outcome at all.

What a computation does in an environment is `runIn`, and there is one equation for each way to
build a computation.  One computation approximates another when it has the same outcome wherever it
has one.
-/

namespace SubstLisp

/-- A computation with access to the environment. -/
abbrev Evaluation := ExceptT EvaluationError (StateT Environment Option)

/-- How a computation ends: with a result or an error, and the environment it leaves. -/
abbrev Outcome (α : Type) := Except EvaluationError α × Environment

namespace Evaluation

variable {α β : Type}

/-- The outcome of a computation that starts in a given environment. -/
def runIn (computation : Evaluation α) (environment : Environment) : Option (Outcome α) :=
  computation environment

/-- The computation that has run out of depth. -/
def exhausted : Evaluation α :=
  fun _ => none

/-- Computations that do the same in every environment are the same. -/
theorem ext {first second : Evaluation α}
    (same : ∀ environment, first.runIn environment = second.runIn environment) : first = second :=
  funext same

@[simp] theorem runIn_exhausted (environment : Environment) :
    (exhausted : Evaluation α).runIn environment = none := rfl

@[simp] theorem runIn_pure (result : α) (environment : Environment) :
    (pure result : Evaluation α).runIn environment = some (.ok result, environment) := rfl

@[simp] theorem runIn_throw (cause : EvaluationError) (environment : Environment) :
    (throw cause : Evaluation α).runIn environment = some (.error cause, environment) := rfl

@[simp] theorem runIn_get (environment : Environment) :
    (get : Evaluation Environment).runIn environment = some (.ok environment, environment) := rfl

@[simp] theorem runIn_set (next environment : Environment) :
    (set next : Evaluation PUnit).runIn environment = some (.ok ⟨⟩, next) := rfl

@[simp] theorem runIn_modify (f : Environment → Environment) (environment : Environment) :
    (modify f : Evaluation PUnit).runIn environment = some (.ok ⟨⟩, f environment) := rfl

/-- What does not look at the environment leaves it as it was. -/
@[simp] theorem runIn_liftExcept (result : Except EvaluationError α) (environment : Environment) :
    (liftExcept result : Evaluation α).runIn environment = some (result, environment) := by
  cases result <;> rfl

/-- The second computation starts where the first ends, unless that ends with an error. -/
theorem runIn_bind (first : Evaluation α) (second : α → Evaluation β) (environment : Environment) :
    (first >>= second).runIn environment =
      match first.runIn environment with
      | none => none
      | some (.ok result, after) => (second result).runIn after
      | some (.error cause, after) => some (.error cause, after) := by
  change (StateT.bind first (ExceptT.bindCont second)) environment = _
  simp only [StateT.bind, runIn]
  cases first environment with
  | none => rfl
  | some outcome =>
    obtain ⟨result | result, after⟩ := outcome <;> rfl

/-- The second computation has the outcome of the first, wherever that has one. -/
def Approximates (first second : Evaluation α) : Prop :=
  ∀ environment outcome, first.runIn environment = some outcome →
    second.runIn environment = some outcome

namespace Approximates

theorem refl (computation : Evaluation α) : computation.Approximates computation :=
  fun _ _ ran => ran

/-- The computation that has run out of depth approximates every other. -/
theorem exhausted (computation : Evaluation α) : Evaluation.exhausted.Approximates computation :=
  fun _ _ ran => by simp at ran

/-- What approximates an approximation of a computation approximates the computation. -/
theorem trans {first second third : Evaluation α} (left : first.Approximates second)
    (right : second.Approximates third) : first.Approximates third :=
  fun environment outcome ran => right environment outcome (left environment outcome ran)

/-- Computations in sequence approximate those that their parts approximate. -/
theorem bind {first second : Evaluation α} {firstNext secondNext : α → Evaluation β}
    (head : first.Approximates second)
    (tail : ∀ result, (firstNext result).Approximates (secondNext result)) :
    (first >>= firstNext).Approximates (second >>= secondNext) := by
  intro environment outcome ran
  rw [runIn_bind] at ran ⊢
  cases started : first.runIn environment with
  | none => simp [started] at ran
  | some middle =>
    rw [started] at ran
    rw [head environment middle started]
    obtain ⟨result | result, after⟩ := middle
    · exact ran
    · exact tail result after outcome ran

end Approximates

end Evaluation

end SubstLisp
