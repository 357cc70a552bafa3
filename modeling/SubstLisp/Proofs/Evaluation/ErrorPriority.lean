import SubstLisp.Proofs.Evaluation.BuiltinResults

/-! # Which error a builtin procedure reports

A call of a builtin procedure can be wrong in several ways at once. The number of arguments comes
first, then the first argument that is no number, and only then what goes wrong in the computation,
even where that would fail before it gets to this argument (`SubstLisp.builtin_error_priority`).
-/

namespace SubstLisp

/-- How many arguments a builtin procedure takes. -/
def Builtin.arity : Builtin → Arity
  | .subtract | .divide | .greater | .less | .greaterOrEqual | .lessOrEqual | .equal => .exactly 2
  | .sqrt | .floor | .ceiling | .round | .abs => .exactly 1
  | .max | .min => .atLeast 1
  | .add | .multiply => .atLeast 0

def Value.IsNumber (value : Value) : Prop :=
  ∃ number : Number, value = number.argument

/-- The first of some arguments that is no number stands at `position`, counted from one, and has
the given type. -/
def IsFirstOther (arguments : List Value) (position : Nat) (typeName : String) : Prop :=
  ∃ earlier value later, arguments = earlier ++ value :: later ∧
    (∀ argument ∈ earlier, argument.IsNumber) ∧ ¬value.IsNumber ∧
    position = earlier.length + 1 ∧ typeName = value.typeName

/-- What comes of a computation with numbers: a number, a boolean or an arithmetic failure. -/
inductive IsComputed : Except BuiltinError Token → Prop where
  | number (value : Number) : IsComputed (.ok (.number value))
  | boolean (value : Bool) : IsComputed (.ok (.boolean value))
  | failure (cause : ArithmeticError) : IsComputed (.error (.arithmetic cause))

/-- The operation of a builtin accepts as many numbers as the builtin accepts arguments. -/
theorem Builtin.arity_operation (builtin : Builtin) : builtin.operation.arity = builtin.arity := by
  cases builtin <;> rfl

/-! ### Finding the first argument that is no number -/

/-- A value is a number just if it is read as one. -/
theorem Value.isNumber_iff {value : Value} :
    value.IsNumber ↔ ∃ number, value.number? = some number := by
  constructor
  · rintro ⟨number, rfl⟩
    exact ⟨number, rfl⟩
  · rintro ⟨number, found⟩
    exact ⟨number, Value.eq_argument_of_number? found⟩

/-- Arguments that are all numbers are the arguments made from some numbers. -/
theorem forall_isNumber_iff {arguments : List Value} :
    (∀ value ∈ arguments, value.IsNumber) ↔
      ∃ numbers : List Number, arguments = numbers.map Number.argument := by
  constructor
  · intro all
    induction arguments with
    | nil => exact ⟨[], rfl⟩
    | cons value rest ih =>
      rw [List.forall_mem_cons] at all
      obtain ⟨number, rfl⟩ := all.1
      obtain ⟨numbers, rfl⟩ := ih all.2
      exact ⟨number :: numbers, rfl⟩
  · rintro ⟨numbers, rfl⟩ value member
    obtain ⟨number, -, rfl⟩ := List.mem_map.mp member
    exact ⟨number, rfl⟩

/-- Numbers are counted until there is an argument that is none. -/
theorem numbersFrom_append_other {value : Value} (other : ¬value.IsNumber) (position : Nat)
    (numbers : List Number) (later : List Value) :
    numbersFrom position (numbers.map Number.argument ++ value :: later) =
      .error (.notANumber (position + numbers.length) value.typeName) := by
  induction numbers generalizing position with
  | nil =>
    have none : value.number? = none := by
      rw [Option.eq_none_iff_forall_ne_some]
      exact fun number found => other (Value.isNumber_iff.mpr ⟨number, found⟩)
    simp only [List.map_nil, List.nil_append, numbersFrom, none, List.length_nil, Nat.add_zero]
  | cons number rest ih =>
    rw [List.map_cons, List.cons_append, numbersFrom]
    simp only [Number.argument, Value.number?, Token.number?] at ih ⊢
    rw [ih, List.length_cons, Nat.add_assoc, Nat.add_comm 1]

/-- The first argument that is no number is refused, with its position and type. -/
theorem numberArguments_of_isFirstOther {arguments : List Value} {position : Nat}
    {typeName : String} (first : IsFirstOther arguments position typeName) :
    numberArguments arguments = .error (.notANumber position typeName) := by
  obtain ⟨earlier, value, later, rfl, areNumbers, other, rfl, rfl⟩ := first
  obtain ⟨numbers, rfl⟩ := forall_isNumber_iff.mp areNumbers
  rw [numberArguments, numbersFrom_append_other other, List.length_map, Nat.add_comm 1]

/-- Either all arguments are numbers, or one of the others is the first. -/
theorem forall_isNumber_or_exists_isFirstOther (arguments : List Value) :
    (∀ value ∈ arguments, value.IsNumber) ∨
      ∃ position typeName, IsFirstOther arguments position typeName := by
  induction arguments with
  | nil => exact .inl (by simp)
  | cons value rest ih =>
    by_cases isNumber : value.IsNumber
    · refine ih.imp (fun all => List.forall_mem_cons.mpr ⟨isNumber, all⟩) ?_
      rintro ⟨-, -, earlier, other, later, rfl, areNumbers, notNumber, -, -⟩
      exact ⟨_, _, value :: earlier, other, later, rfl,
        List.forall_mem_cons.mpr ⟨isNumber, areNumbers⟩, notNumber, rfl, rfl⟩
    · exact .inr ⟨_, _, [], value, rest, rfl, by simp, isNumber, rfl, rfl⟩

/-! ### Computing with numbers -/

/-- The outcome of an arithmetic operation counts as computed, a failure included. -/
theorem isComputed_of_arithmetic (outcome : Except ArithmeticError Number) :
    IsComputed ((outcome.map Token.number).mapError BuiltinError.arithmetic) := by
  cases outcome with
  | ok value => exact .number value
  | error cause => exact .failure cause

/-- With as many numbers as it takes, an operation does not ask for others. -/
theorem Operation.isComputed_compute {operation : Operation} {numbers : List Number}
    (accepted : operation.arity.accepts numbers.length) :
    IsComputed (operation.compute numbers) := by
  cases operation with
  | fold neutral combine =>
    cases numbers with
    | nil => exact .number neutral
    | cons first rest => exact isComputed_of_arithmetic _
  | binary apply =>
    simp only [arity, Arity.accepts, decide_eq_true_eq] at accepted
    obtain ⟨a, b, rfl⟩ := List.length_eq_two.mp accepted
    exact isComputed_of_arithmetic _
  | unary apply =>
    simp only [arity, Arity.accepts, decide_eq_true_eq] at accepted
    obtain ⟨a, rfl⟩ := List.length_eq_one_iff.mp accepted
    exact isComputed_of_arithmetic _
  | comparison accepts =>
    simp only [arity, Arity.accepts, decide_eq_true_eq] at accepted
    obtain ⟨a, b, rfl⟩ := List.length_eq_two.mp accepted
    exact .boolean _
  | selection beyond =>
    simp only [arity, Arity.accepts, decide_eq_true_eq] at accepted
    cases numbers with
    | nil => exact absurd accepted (by simp)
    | cons first rest => exact .number _

/-! ### The order of the checks -/

section Checks

variable {builtin : Builtin} {arguments : List Value}

/-- A wrong number of arguments is refused whatever the arguments are. -/
theorem Builtin.apply_of_not_accepts
    (refused : ¬builtin.arity.accepts arguments.length) :
    builtin.apply arguments = .error (.arity builtin.arity arguments.length) := by
  rw [← builtin.arity_operation] at refused ⊢
  rw [Builtin.apply, Operation.apply, if_neg refused]

/-- With an accepted number of arguments, the first one that is no number is refused. -/
theorem Builtin.apply_of_isFirstOther (accepted : builtin.arity.accepts arguments.length)
    {position : Nat} {typeName : String} (first : IsFirstOther arguments position typeName) :
    builtin.apply arguments = .error (.notANumber position typeName) := by
  rw [← builtin.arity_operation] at accepted
  rw [Builtin.apply, Operation.apply, if_pos accepted, numberArguments_of_isFirstOther first]

/-- With an accepted number of numbers, a builtin gets to computing. -/
theorem Builtin.isComputed_apply (accepted : builtin.arity.accepts arguments.length)
    (areNumbers : ∀ value ∈ arguments, value.IsNumber) : IsComputed (builtin.apply arguments) := by
  obtain ⟨numbers, rfl⟩ := forall_isNumber_iff.mp areNumbers
  rw [← builtin.arity_operation, List.length_map] at accepted
  rw [Builtin.apply, Operation.apply_numbers accepted]
  exact Operation.isComputed_compute accepted

/-- What a builtin procedure makes of some arguments, by the first of its checks that they do not
pass. -/
inductive Builtin.Verdict (builtin : Builtin) (arguments : List Value) :
    Except BuiltinError Token → Prop where
  | refused (refused : ¬builtin.arity.accepts arguments.length) :
      Verdict builtin arguments (.error (.arity builtin.arity arguments.length))
  | other {position : Nat} {typeName : String}
      (accepted : builtin.arity.accepts arguments.length)
      (first : IsFirstOther arguments position typeName) :
      Verdict builtin arguments (.error (.notANumber position typeName))
  | computed {result : Except BuiltinError Token}
      (accepted : builtin.arity.accepts arguments.length)
      (areNumbers : ∀ value ∈ arguments, value.IsNumber) (computed : IsComputed result) :
      Verdict builtin arguments result

/-- Every call of a builtin ends in one of the three ways, and the arguments decide in which. -/
theorem Builtin.verdict (builtin : Builtin) (arguments : List Value) :
    builtin.Verdict arguments (builtin.apply arguments) := by
  by_cases accepted : builtin.arity.accepts arguments.length
  · rcases forall_isNumber_or_exists_isFirstOther arguments with areNumbers | ⟨_, _, first⟩
    · exact .computed accepted areNumbers (Builtin.isComputed_apply accepted areNumbers)
    · rw [Builtin.apply_of_isFirstOther accepted first]
      exact .other accepted first
  · rw [Builtin.apply_of_not_accepts accepted]
    exact .refused accepted

end Checks

/-- **Errors of builtin procedures have one priority.** Whatever the arguments, a procedure reports
how many there are just if it does not take as many; else the first one that is no number just if
there is one; and it computes with numbers in all other cases. -/
theorem builtin_error_priority (builtin : Builtin) (arguments : List Value) :
    (∀ expected found, builtin.apply arguments = .error (.arity expected found) ↔
      ¬builtin.arity.accepts arguments.length ∧ expected = builtin.arity ∧
        found = arguments.length) ∧
    (∀ position typeName, builtin.apply arguments = .error (.notANumber position typeName) ↔
      builtin.arity.accepts arguments.length ∧ IsFirstOther arguments position typeName) ∧
    (IsComputed (builtin.apply arguments) ↔
      builtin.arity.accepts arguments.length ∧ ∀ value ∈ arguments, value.IsNumber) := by
  have verdict := builtin.verdict arguments
  refine ⟨fun expected found => ⟨?_, ?_⟩, fun position typeName => ⟨?_, ?_⟩, ?_, ?_⟩
  · intro same
    rw [same] at verdict
    cases verdict with
    | refused refused => exact ⟨refused, rfl, rfl⟩
    | computed _ _ computed => cases computed
  · rintro ⟨refused, rfl, rfl⟩
    exact Builtin.apply_of_not_accepts refused
  · intro same
    rw [same] at verdict
    cases verdict with
    | other accepted first => exact ⟨accepted, first⟩
    | computed _ _ computed => cases computed
  · rintro ⟨accepted, first⟩
    exact Builtin.apply_of_isFirstOther accepted first
  · intro computed
    generalize builtin.apply arguments = result at verdict computed
    cases verdict with
    | refused _ => cases computed
    | other _ _ => cases computed
    | computed accepted areNumbers _ => exact ⟨accepted, areNumbers⟩
  · rintro ⟨accepted, areNumbers⟩
    exact Builtin.isComputed_apply accepted areNumbers

-- The sum of the first two arguments is an overflow, but the third one is no number.
example : Builtin.add.apply [(Number.integer Int64.maxValue).argument, (Number.integer 1).argument,
    .token (.string "'x'")] = .error (.notANumber 3 "string") := by
  rfl

end SubstLisp
