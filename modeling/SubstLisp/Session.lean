import SubstLisp.Evaluation.Evaluate

/-!
# Sessions

A session interprets texts one after the other in the same environment.  A text is read as a whole
before any of it is evaluated.  Its expressions are then evaluated in order up to the first error,
and what they bound until then stays bound.
-/

namespace SubstLisp

/-- What interpreting a text leads to: its values or a failure, and the environment it leaves. -/
abbrev Interpretation := Except Failure (List Value) × Environment

/-- Interpret a text with at most `depth` evaluations inside each other. -/
def interpret (depth : Nat) (source : String) (environment : Environment) : Option Interpretation :=
  match readProgram source with
  | .error cause => some (.error (.reading cause), environment)
  | .ok program => do
      let (result, after) ← ((evaluate depth).values program).runIn environment
      return (result.mapError .evaluation, after)

/-- Interpret several texts one after the other, whether or not they fail. -/
def interpretAll (depth : Nat) (environment : Environment) : List String → Option Environment
  | [] => some environment
  | source :: rest => do
      let (_, after) ← interpret depth source environment
      interpretAll depth after rest

end SubstLisp
