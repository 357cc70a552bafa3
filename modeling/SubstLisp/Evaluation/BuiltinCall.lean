import SubstLisp.Evaluation.Value
import SubstLisp.Number.Rounding

/-!
# Calls of builtin procedures

A builtin procedure takes numbers and gives a number or a boolean.  A call with the wrong number of
arguments fails whatever they are; next the first argument that is not a number is reported; only
then does the computation start, and may fail itself.
-/

namespace SubstLisp

/-- How many arguments a procedure takes. -/
inductive Arity where
  | exactly (count : Nat)
  | atLeast (count : Nat)
deriving DecidableEq

def Arity.text : Arity → String
  | .exactly count => "exactly " ++ toString count
  | .atLeast count => "at least " ++ toString count

def Arity.accepts (count : Nat) : Arity → Bool
  | .exactly expected => count = expected
  | .atLeast expected => expected ≤ count

/-- Why a builtin procedure has no result. -/
inductive BuiltinError where
  | arity (expected : Arity) (found : Nat)
  /-- The argument at `position`, counted from one, is no number. -/
  | notANumber (position : Nat) (typeName : String)
  | arithmetic (cause : ArithmeticError)
deriving DecidableEq

def BuiltinError.message : BuiltinError → String
  | .arity expected found =>
      "expects " ++ expected.text ++ " arguments, got " ++ toString found
  | .notANumber position typeName =>
      "expects a number for argument " ++ toString position ++ ", got " ++ typeName
  | .arithmetic cause => cause.message

/-- The shapes of builtin procedures. -/
inductive Operation where
  /-- Combine all arguments from left to right; without any, the result is `neutral`. -/
  | fold (neutral : Number) (combine : Number → Number → Except ArithmeticError Number)
  | binary (apply : Number → Number → Except ArithmeticError Number)
  | unary (apply : Number → Except ArithmeticError Number)
  /-- Whether the order of two numbers is accepted; where there is no order it is not. -/
  | comparison (accepts : Ordering → Bool)
  /-- The first argument to which no other has the order `beyond`. -/
  | selection (beyond : Ordering)

def Builtin.operation : Builtin → Operation
  | .add => .fold (.integer 0) Number.add
  | .subtract => .binary Number.sub
  | .multiply => .fold (.integer 1) Number.mul
  | .divide => .binary Number.div
  | .greater => .comparison (· == .gt)
  | .less => .comparison (· == .lt)
  | .greaterOrEqual => .comparison (· != .lt)
  | .lessOrEqual => .comparison (· != .gt)
  | .equal => .comparison (· == .eq)
  | .sqrt => .unary Number.sqrt
  | .floor => .unary Number.floor
  | .ceiling => .unary Number.ceiling
  | .round => .unary Number.round
  | .max => .selection .gt
  | .min => .selection .lt
  | .abs => .unary Number.abs

def Operation.arity : Operation → Arity
  | .fold _ _ => .atLeast 0
  | .binary _ | .comparison _ => .exactly 2
  | .unary _ => .exactly 1
  | .selection _ => .atLeast 1

/-- The values as numbers, or the first that is none; the first value has the given position. -/
def numbersFrom (position : Nat) : List Value → Except BuiltinError (List Number)
  | [] => .ok []
  | value :: rest =>
    match value.number? with
    | none => .error (.notANumber position value.typeName)
    | some number =>
      match numbersFrom (position + 1) rest with
      | .error e => .error e
      | .ok numbers => .ok (number :: numbers)

/-- The arguments of a call as numbers, or the first that is none. -/
def numberArguments (arguments : List Value) : Except BuiltinError (List Number) :=
  numbersFrom 1 arguments

def combineAll (combine : Number → Number → Except ArithmeticError Number) (start : Number) :
    List Number → Except ArithmeticError Number
  | [] => .ok start
  | number :: rest =>
    match combine start number with
    | .error e => .error e
    | .ok next => combineAll combine next rest

/-- The first of some numbers to which no later one has the order `beyond`. -/
def selectNumber (beyond : Ordering) (best : Number) (others : List Number) : Number :=
  others.foldl (fun best number => if number.compare best = some beyond then number else best) best

namespace Operation

/-- The result of an operation on numbers, as many as its arity asks for. -/
def compute (operation : Operation) (numbers : List Number) : Except BuiltinError Token :=
  match operation, numbers with
  | .fold neutral _, [] => .ok (.number neutral)
  | .fold _ combine, first :: rest =>
      ((combineAll combine first rest).map .number).mapError .arithmetic
  | .binary apply, [a, b] => ((apply a b).map .number).mapError .arithmetic
  | .unary apply, [a] => ((apply a).map .number).mapError .arithmetic
  | .comparison accepts, [a, b] => .ok (.boolean ((a.compare b).any accepts))
  | .selection beyond, first :: rest => .ok (.number (selectNumber beyond first rest))
  | operation, numbers => .error (.arity operation.arity numbers.length)

def apply (operation : Operation) (arguments : List Value) : Except BuiltinError Token :=
  if operation.arity.accepts arguments.length then
    match numberArguments arguments with
    | .error e => .error e
    | .ok numbers => operation.compute numbers
  else .error (.arity operation.arity arguments.length)

end Operation

def Builtin.apply (builtin : Builtin) (arguments : List Value) : Except BuiltinError Token :=
  builtin.operation.apply arguments

end SubstLisp
