import SubstLisp.Evaluation.BuiltinCall
import SubstLisp.Form.Reading

/-!
# Failures

Everything that can go wrong between a source text and its values.  A failure is a cause and a span
of the text it came from; the wording is a function of the cause.
-/

namespace SubstLisp

/-- What is wrong with a form that binds a name or makes a procedure. -/
inductive DefinitionFault where
  | abstractionShape
  | listParameter (parameter : Node)
  | unnamedParameter (parameter : Node)
  | definitionShape
  | unnamedProcedure
  | procedureWithoutBody
  | definitionTarget (target : Node)
  | assignmentShape
  | assignmentTarget (target : Node)
  /-- The value to bind is none. -/
  | noValue

def DefinitionFault.message : DefinitionFault → String
  | .abstractionShape => "lambda expects a parameter list and a body"
  | .listParameter parameter => "parameter " ++ parameter.text ++ " is a list"
  | .unnamedParameter parameter => "parameter " ++ parameter.text ++ " is not an identifier"
  | .definitionShape => "define expects a name and a value"
  | .unnamedProcedure => "procedure name must be an identifier"
  | .procedureWithoutBody => "procedure definition has no body"
  | .definitionTarget target => "cannot define " ++ target.text
  | .assignmentShape => "set! expects a name and a value"
  | .assignmentTarget target => "cannot set! " ++ target.text
  | .noValue => "value expression has no value"

/-- What stands in the place of a procedure and is none. -/
inductive Uncallable where
  | emptyList
  | void
  | token (atom : Token)
  /-- A builtin procedure that the environment does not provide. -/
  | missing (builtin : Builtin)

def Uncallable.text : Uncallable → String
  | .emptyList => "()"
  | .void => "void"
  | .token atom => atom.text ++ " (" ++ atom.typeName ++ ")"
  | .missing builtin => builtin.spelling

/-- Why an expression has no value. -/
inductive EvaluationError where
  | unbound (name : String) (span : Span)
  | malformedDefinition (fault : DefinitionFault) (span : Span)
  | malformedConditional (span : Span)
  | argumentCount (expected found : Nat) (span : Span)
  | notCallable (operator : Uncallable) (span : Span)
  | builtin (procedure : Builtin) (cause : BuiltinError) (span : Span)

namespace EvaluationError

def message : EvaluationError → String
  | .unbound name _ => "undefined variable " ++ name
  | .malformedDefinition fault _ => "ill-formed definition: " ++ fault.message
  | .malformedConditional _ =>
      "ill-formed special form: if expects a test, a consequent and an optional alternative"
  | .argumentCount expected found _ =>
      "function expects " ++ toString expected ++ " arguments, got " ++ toString found ++ " instead"
  | .notCallable operator _ => "attempt to call a non procedure: " ++ operator.text
  | .builtin procedure cause _ => procedure.spelling ++ ": " ++ cause.message

def span : EvaluationError → Span
  | .unbound _ span | .malformedDefinition _ span | .malformedConditional span
  | .argumentCount _ _ span | .notCallable _ span | .builtin _ _ span => span

end EvaluationError

/-- Why a text has no values. -/
inductive Failure where
  | reading (cause : ReadError)
  | evaluation (cause : EvaluationError)

/-- The kinds of failures that reports tell apart. -/
inductive FailureKind where
  | malformedInput
  | malformedDefinition
  | invalidSpecialForm
  | undefinedVariable
  | arityMismatch
  | notCallable
  | procedureError
deriving DecidableEq

def FailureKind.text : FailureKind → String
  | .malformedInput => "malformed input"
  | .malformedDefinition => "malformed definition"
  | .invalidSpecialForm => "invalid special form"
  | .undefinedVariable => "undefined variable"
  | .arityMismatch => "arity mismatch"
  | .notCallable => "not callable"
  | .procedureError => "procedure error"

def EvaluationError.kind : EvaluationError → FailureKind
  | .unbound _ _ => .undefinedVariable
  | .malformedDefinition _ _ => .malformedDefinition
  | .malformedConditional _ => .invalidSpecialForm
  | .argumentCount _ _ _ => .arityMismatch
  | .notCallable _ _ => .notCallable
  | .builtin _ _ _ => .procedureError

namespace Failure

def message : Failure → String
  | .reading cause => cause.message
  | .evaluation cause => cause.message

def span : Failure → Span
  | .reading cause => cause.span
  | .evaluation cause => cause.span

def kind : Failure → FailureKind
  | .reading _ => .malformedInput
  | .evaluation cause => cause.kind

end Failure

end SubstLisp
