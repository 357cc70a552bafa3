import SubstLisp.Evaluation.Computation

/-!
# Evaluation

Evaluation takes an environment and gives a value or an error, together with the environment it
leaves; what was bound before an error stays bound.

Evaluation need not end, so the evaluator is given a depth: how many evaluations may be under way
inside each other.  It has no outcome at all when that does not suffice.  One layer of evaluation is
`evaluateWith`, which is told how to evaluate the expressions inside; `evaluate` stacks up as many
layers as the depth allows.
-/

namespace SubstLisp

abbrev Evaluator := Node → Evaluation Value

namespace Evaluator

/-- The values of several expressions, from left to right.  Those without a value leave none. -/
def values (evaluator : Evaluator) : List Node → Evaluation (List Value)
  | [] => pure []
  | node :: rest => do
      let value ← evaluator node
      let others ← values evaluator rest
      return if value.isVoid then others else value :: others

/-- The value of the last of several expressions, or `latest` if there is none. -/
def sequence (evaluator : Evaluator) (latest : Value) : List Node → Evaluation Value
  | [] => pure latest
  | node :: rest => do
      let value ← evaluator node
      sequence evaluator value rest

/-- The value that a name is to be bound to, which must be one. -/
def bindable (evaluator : Evaluator) (node : Node) : Evaluation Value := do
  let value ← evaluator node
  if value.isVoid then throw (.malformedDefinition .noValue node.span) else return value

/-- The value of a conditional.  Only the boolean `#t` selects the consequent, and the expression
that is not selected is left alone. -/
def conditional (evaluator : Evaluator) (operands : List Node) (span : Span) : Evaluation Value :=
  let choose (test consequent : Node) (alternative : Evaluation Value) : Evaluation Value := do
    match ← evaluator test with
    | .token (.boolean true) => evaluator consequent
    | _ => alternative
  match operands with
  | [test, consequent] => choose test consequent (return .void)
  | [test, consequent, alternative] => choose test consequent (evaluator alternative)
  | _ => throw (.malformedConditional span)

end Evaluator

/-- One expression for a whole body: several are put in sequence. -/
def bodyOf (expressions : List Node) (span : Span) : Node :=
  match expressions with
  | [single] => single
  | _ => .list (.atom (.keyword (.special .sequence)) span :: expressions) span

/-- The parameters of an abstraction.  Any token will do, since an argument may have been written in
the place of a name. -/
def parameterTokens : List Node → Except EvaluationError (List Token)
  | [] => .ok []
  | .atom token _ :: rest => (parameterTokens rest).map (token :: ·)
  | .list children span :: _ =>
      .error (.malformedDefinition (.listParameter (.list children span)) span)

/-- The parameters of a procedure definition, which must be names. -/
def parameterNames : List Node → Except EvaluationError (List Token)
  | [] => .ok []
  | .atom (.identifier name) _ :: rest => (parameterNames rest).map (.identifier name :: ·)
  | parameter :: _ => .error (.malformedDefinition (.unnamedParameter parameter) parameter.span)

def abstraction (operands : List Node) (span : Span) : Except EvaluationError Procedure :=
  match operands with
  | .list parameters _ :: first :: others => do
      let tokens ← parameterTokens parameters
      return { parameters := tokens, body := bodyOf (first :: others) span, span }
  | _ => .error (.malformedDefinition .abstractionShape span)

/-- The name and the procedure that a procedure definition binds.  The operands are the signature,
whose span is `signatureSpan`, and the body. -/
def namedProcedure (signature : List Node) (signatureSpan : Span) (body : List Node)
    (span : Span) : Except EvaluationError (String × Procedure) :=
  match signature with
  | .atom (.identifier name) _ :: parameters => do
      if body.isEmpty then throw (.malformedDefinition .procedureWithoutBody span)
      let tokens ← parameterNames parameters
      return (name, { parameters := tokens, body := bodyOf body span, span })
  | _ => .error (.malformedDefinition .unnamedProcedure signatureSpan)

namespace Evaluator

/-- Bind a name to the value of an expression, or to a procedure with a given signature. -/
def definition (evaluator : Evaluator) (operands : List Node) (span : Span) : Evaluation Value :=
  match operands with
  | [] => throw (.malformedDefinition .definitionShape span)
  | .atom (.identifier name) _ :: [node] => do
      let value ← evaluator.bindable node
      modify (·.define name value)
      return .void
  | .atom (.identifier _) _ :: _ => throw (.malformedDefinition .definitionShape span)
  | .list signature signatureSpan :: body => do
      let (name, procedure) ← liftExcept (namedProcedure signature signatureSpan body span)
      modify (·.define name (.procedure procedure))
      return .void
  | .atom token tokenSpan :: _ =>
      throw (.malformedDefinition (.definitionTarget (.atom token tokenSpan)) tokenSpan)

/-- Bind a name anew.  The value comes first: a name it binds is bound when its turn comes. -/
def assignment (evaluator : Evaluator) (operands : List Node) (span : Span) : Evaluation Value :=
  match operands with
  | [.atom (.identifier name) nameSpan, node] => do
      let value ← evaluator.bindable node
      match (← get).assign? name value with
      | some environment => set environment
      | none => throw (.unbound name nameSpan)
      return .void
  | [target, _] => throw (.malformedDefinition (.assignmentTarget target) target.span)
  | _ => throw (.malformedDefinition .assignmentShape span)

def special (evaluator : Evaluator) (form : SpecialForm) (operands : List Node) (span : Span) :
    Evaluation Value :=
  match form with
  | .conditional => evaluator.conditional operands span
  | .definition => evaluator.definition operands span
  | .assignment => evaluator.assignment operands span
  | .abstraction => return .procedure (← liftExcept (abstraction operands span))
  | .sequence => evaluator.sequence .void operands

/-- The result of a builtin procedure, which must be provided before its operands are looked at. -/
def callBuiltin (evaluator : Evaluator) (builtin : Builtin) (operands : List Node) (span : Span) :
    Evaluation Value := do
  if (← get).provides builtin then
    let arguments ← evaluator.values operands
    match builtin.apply arguments with
    | .ok token => return .token token
    | .error cause => throw (.builtin builtin cause span)
  else throw (.notCallable (.missing builtin) span)

/-- The value of a procedure's body with the arguments written into it. -/
def callProcedure (evaluator : Evaluator) (procedure : Procedure) (operands : List Node)
    (span : Span) : Evaluation Value := do
  let arguments ← evaluator.values operands
  if arguments.length = procedure.parameters.length then
    evaluator (procedure.instantiate arguments)
  else throw (.argumentCount procedure.parameters.length arguments.length span)

/-- The value of a list: its first member decides what becomes of the others. -/
def combination (evaluator : Evaluator) (operator : Node) (operands : List Node) (span : Span) :
    Evaluation Value := do
  match ← evaluator operator with
  | .token (.keyword (.special form)) => evaluator.special form operands span
  | .token (.keyword (.builtin builtin)) => evaluator.callBuiltin builtin operands span
  | .procedure procedure => evaluator.callProcedure procedure operands span
  | .token token => throw (.notCallable (.token token) operator.span)
  | .void => throw (.notCallable .void operator.span)

end Evaluator

/-- One layer of evaluation, given how to evaluate the expressions inside. -/
def evaluateWith (inner : Evaluator) : Evaluator
  | .atom (.identifier name) span => do
      match (← get).lookup? name with
      | some value => return value
      | none => throw (.unbound name span)
  | .atom token _ => return .token token
  | .list [] span => throw (.notCallable .emptyList span)
  | .list (operator :: operands) span => inner.combination operator operands span

/-- Evaluate an expression with at most `depth` evaluations inside each other. -/
def evaluate : (depth : Nat) → Evaluator
  | 0 => fun _ => .exhausted
  | depth + 1 => evaluateWith (evaluate depth)

/-- An expression evaluates in an environment to an outcome and another environment. -/
def Evaluates (node : Node) (environment : Environment)
    (outcome : Outcome Value) : Prop :=
  ∃ depth, (evaluate depth node).runIn environment = some outcome

end SubstLisp
