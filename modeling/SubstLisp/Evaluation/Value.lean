import SubstLisp.Form.Node

/-!
# Values

An expression evaluates to a token, to a procedure, or to nothing at all.  A procedure is its
parameters and its body; it remembers no bindings of the place where it was made.

To call a procedure, the arguments are written into a copy of its body in the place of the
parameters, one parameter after the other.  The writing is textual: it reaches into procedures
inside the body, their parameter lists included, and a later parameter is also replaced inside the
arguments written for earlier ones.
-/

namespace SubstLisp

/-- A procedure, and where it was written.  Parameters are any tokens, since writing an argument
into an enclosing body may have replaced a name. -/
structure Procedure where
  parameters : List Token
  body : Node
  span : Span
deriving Inhabited

namespace Procedure

/-- The expression that evaluates to a procedure. -/
def node (procedure : Procedure) : Node :=
  .list
    [.atom (.keyword (.special .abstraction)) procedure.span,
      .list (procedure.parameters.map (.atom · procedure.span)) procedure.span,
      procedure.body]
    procedure.span

def text (procedure : Procedure) : String :=
  procedure.node.text

end Procedure

/-- What an expression evaluates to. -/
inductive Value where
  | token (atom : Token)
  | procedure (callee : Procedure)
  /-- What definitions and assignments evaluate to. -/
  | void
deriving Inhabited

namespace Value

/-- Whether it is the value of a form that has none. -/
def isVoid : Value → Bool
  | .void => true
  | .token _ | .procedure _ => false

def number? : Value → Option Number
  | .token atom => atom.number?
  | .procedure _ | .void => none

def text : Value → String
  | .token atom => atom.text
  | .procedure callee => callee.text
  | .void => ""

def typeName : Value → String
  | .token atom => atom.typeName
  | .procedure _ => "procedure"
  | .void => "void"

/-- The expression that stands for a value where a body asks for it. -/
def node? (span : Span) : Value → Option Node
  | .token atom => some (.atom atom span)
  | .procedure callee => some callee.node
  | .void => none

end Value

/-- Write an argument in the place of every atom that is like a parameter. -/
def Node.substitute (parameter : Token) (argument : Value) (node : Node) : Node :=
  node.mapLeaves fun token span =>
    if token.alike parameter then (argument.node? span).getD (.atom token span)
    else .atom token span

/-- The body of a procedure with arguments written in the place of its parameters, the first
parameter first. -/
def Procedure.instantiate (procedure : Procedure) (arguments : List Value) : Node :=
  (procedure.parameters.zip arguments).foldl
    (fun body (parameter, argument) => body.substitute parameter argument) procedure.body

end SubstLisp
