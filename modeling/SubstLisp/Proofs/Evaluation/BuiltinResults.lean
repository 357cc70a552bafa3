import SubstLisp.Evaluation.BuiltinCall
import SubstLisp.Proofs.Number.Canonical

/-! # What builtin procedures make of their arguments

A builtin procedure has a number or a boolean as its result. A property of numbers that the
operation of a procedure keeps is a property of its results (`SubstLisp.Builtin.apply_eq_ok`). Where
numbers with this property make its operation fail for certain causes only, it fails for no other
arithmetic cause itself (`SubstLisp.Builtin.apply_eq_error`).
-/

namespace SubstLisp

/-- Numbers with the property `P` give results with the property `P`. -/
def Operation.Keeps (P : Number → Prop) : Operation → Prop
  | .fold neutral combine =>
      P neutral ∧ ∀ a b result, P a → P b → combine a b = .ok result → P result
  | .binary apply => ∀ a b result, P a → P b → apply a b = .ok result → P result
  | .unary apply => ∀ a result, P a → apply a = .ok result → P result
  | .comparison _ | .selection _ => True

/-- Numbers with the property `P` make the operation fail for causes with the property `Q` only. -/
def Operation.FailsOnly (P : Number → Prop) (Q : ArithmeticError → Prop) : Operation → Prop
  | .fold _ combine => ∀ a b cause, P a → P b → combine a b = .error cause → Q cause
  | .binary apply => ∀ a b cause, P a → P b → apply a b = .error cause → Q cause
  | .unary apply => ∀ a cause, P a → apply a = .error cause → Q cause
  | .comparison _ | .selection _ => True

/-- A number as the argument of a procedure. -/
def Number.argument (number : Number) : Value :=
  .token (.number number)

/-- The only value that is read as a number is that number's token. -/
theorem Value.eq_argument_of_number? {value : Value} {number : Number}
    (found : value.number? = some number) : value = number.argument := by
  cases value with
  | token atom =>
    cases atom with
    | number inside => exact congrArg Number.argument (Option.some.inj found)
    | _ => cases found
  | procedure callee => cases found
  | void => cases found

section Keeping

variable {P : Number → Prop} {Q : ArithmeticError → Prop}

/-- The numbers found among the arguments are arguments. -/
theorem token_mem_of_numbersFrom {position : Nat} {arguments : List Value} {numbers : List Number}
    (found : numbersFrom position arguments = .ok numbers) :
    ∀ number ∈ numbers, .token (.number number) ∈ arguments := by
  induction arguments generalizing position numbers with
  | nil =>
    cases found
    simp
  | cons value rest ih =>
    simp only [numbersFrom] at found
    cases isNumber : value.number? with
    | none => simp [isNumber] at found
    | some first =>
      cases others : numbersFrom (position + 1) rest with
      | error e => simp [isNumber, others] at found
      | ok later =>
        simp only [isNumber, others, Except.ok.injEq] at found
        subst found
        intro number member
        rcases List.mem_cons.mp member with rfl | inside
        · rw [Value.eq_argument_of_number? isNumber]
          exact List.mem_cons_self
        · exact List.mem_cons_of_mem _ (ih others number inside)

/-- What every step from the left keeps, the whole combination keeps. -/
theorem combineAll_keeps {combine : Number → Number → Except ArithmeticError Number}
    (kept : ∀ a b result, P a → P b → combine a b = .ok result → P result) {start : Number}
    (startKept : P start) {numbers : List Number} (numbersKept : ∀ number ∈ numbers, P number)
    {result : Number} (found : combineAll combine start numbers = .ok result) : P result := by
  induction numbers generalizing start with
  | nil =>
    cases found
    exact startKept
  | cons number rest ih =>
    rw [List.forall_mem_cons] at numbersKept
    simp only [combineAll] at found
    cases combined : combine start number with
    | error e => simp [combined] at found
    | ok next =>
      simp only [combined] at found
      exact ih (kept _ _ _ startKept numbersKept.1 combined) numbersKept.2 found

/-- The number that is selected is one of those there are. -/
theorem selectNumber_mem (beyond : Ordering) (best : Number) (others : List Number) :
    selectNumber beyond best others ∈ best :: others := by
  induction others generalizing best with
  | nil => exact List.mem_cons_self
  | cons number rest ih =>
    have later := ih (if number.compare best = some beyond then number else best)
    simp only [selectNumber, List.foldl_cons, List.mem_cons] at later ⊢
    rcases later with isFirst | inRest
    · rw [isFirst]
      by_cases replaced : number.compare best = some beyond
      · simp only [replaced, ↓reduceIte, true_or, or_true]
      · simp only [replaced, ↓reduceIte, true_or]
    · exact .inr (.inr inRest)

/-- A result of an operation on numbers is a number with the kept property, or a boolean. -/
theorem Operation.compute_eq_ok {operation : Operation} (kept : operation.Keeps P)
    {numbers : List Number} (numbersKept : ∀ number ∈ numbers, P number) {token : Token}
    (computed : operation.compute numbers = .ok token) :
    (∃ number, token = .number number ∧ P number) ∨ ∃ value, token = .boolean value := by
  have arithmetic : ∀ {outcome : Except ArithmeticError Number},
      (∀ result, outcome = .ok result → P result) →
      (outcome.map Token.number).mapError BuiltinError.arithmetic = .ok token →
      ∃ number, token = .number number ∧ P number := by
    intro outcome results same
    cases outcome with
    | error e => cases same
    | ok result =>
      cases same
      exact ⟨result, rfl, results result rfl⟩
  unfold Operation.compute at computed
  split at computed
  · cases computed
    exact .inl ⟨_, rfl, kept.1⟩
  · rw [List.forall_mem_cons] at numbersKept
    exact .inl (arithmetic
      (fun _ found => combineAll_keeps kept.2 numbersKept.1 numbersKept.2 found) computed)
  · refine .inl (arithmetic (fun result found => ?_) computed)
    exact kept _ _ result (numbersKept _ (by simp)) (numbersKept _ (by simp)) found
  · refine .inl (arithmetic (fun result found => ?_) computed)
    exact kept _ result (numbersKept _ (by simp)) found
  · cases computed
    exact .inr ⟨_, rfl⟩
  · cases computed
    exact .inl ⟨_, rfl, numbersKept _ (selectNumber_mem _ _ _)⟩
  · cases computed

/-- A result of a builtin procedure is a number with the kept property, or a boolean. -/
theorem Builtin.apply_eq_ok {builtin : Builtin} (kept : builtin.operation.Keeps P)
    {arguments : List Value}
    (argumentsKept : ∀ number, .token (.number number) ∈ arguments → P number) {token : Token}
    (applied : builtin.apply arguments = .ok token) :
    (∃ number, token = .number number ∧ P number) ∨ ∃ value, token = .boolean value := by
  unfold Builtin.apply Operation.apply at applied
  by_cases accepted : builtin.operation.arity.accepts arguments.length
  · simp only [accepted, ↓reduceIte, numberArguments] at applied
    cases found : numbersFrom 1 arguments with
    | error e => simp [found] at applied
    | ok numbers =>
      simp only [found] at applied
      refine Operation.compute_eq_ok kept ?_ applied
      exact fun number member => argumentsKept number (token_mem_of_numbersFrom found number member)
  · simp only [accepted, Bool.false_eq_true, ↓reduceIte] at applied
    cases applied

/-! ### Why builtin procedures fail -/

/-- Reading the arguments as numbers computes nothing that could fail. -/
theorem numbersFrom_ne_arithmetic (position : Nat) (arguments : List Value)
    (cause : ArithmeticError) : numbersFrom position arguments ≠ .error (.arithmetic cause) := by
  induction arguments generalizing position with
  | nil => simp [numbersFrom]
  | cons value rest ih =>
    intro failed
    simp only [numbersFrom] at failed
    cases isNumber : value.number? with
    | none => simp [isNumber] at failed
    | some first =>
      cases others : numbersFrom (position + 1) rest with
      | ok later => simp [isNumber, others] at failed
      | error e =>
        simp only [isNumber, others, Except.error.injEq] at failed
        exact ih (position + 1) (failed ▸ others)

/-- All that has been combined on the way is kept, so every step fails for allowed causes only. -/
theorem combineAll_failsOnly {combine : Number → Number → Except ArithmeticError Number}
    (kept : ∀ a b result, P a → P b → combine a b = .ok result → P result)
    (fails : ∀ a b cause, P a → P b → combine a b = .error cause → Q cause) {start : Number}
    (startKept : P start) {numbers : List Number} (numbersKept : ∀ number ∈ numbers, P number)
    {cause : ArithmeticError} (failed : combineAll combine start numbers = .error cause) :
    Q cause := by
  induction numbers generalizing start with
  | nil => cases failed
  | cons number rest ih =>
    rw [List.forall_mem_cons] at numbersKept
    simp only [combineAll] at failed
    cases combined : combine start number with
    | error e =>
      simp only [combined, Except.error.injEq] at failed
      exact failed ▸ fails _ _ _ startKept numbersKept.1 combined
    | ok next =>
      simp only [combined] at failed
      exact ih (kept _ _ _ startKept numbersKept.1 combined) numbersKept.2 failed

/-- An operation fails for the causes that its numbers allow. -/
theorem Operation.compute_eq_error {operation : Operation} (kept : operation.Keeps P)
    (fails : operation.FailsOnly P Q) {numbers : List Number}
    (numbersKept : ∀ number ∈ numbers, P number) {cause : ArithmeticError}
    (computed : operation.compute numbers = .error (.arithmetic cause)) : Q cause := by
  have arithmetic : ∀ {outcome : Except ArithmeticError Number},
      (outcome.map Token.number).mapError BuiltinError.arithmetic = .error (.arithmetic cause) →
      outcome = .error cause := by
    intro outcome same
    cases outcome with
    | ok result => cases same
    | error e =>
      cases same
      rfl
  unfold Operation.compute at computed
  split at computed
  · cases computed
  · rw [List.forall_mem_cons] at numbersKept
    exact combineAll_failsOnly kept.2 fails numbersKept.1 numbersKept.2 (arithmetic computed)
  · exact fails _ _ _ (numbersKept _ (by simp)) (numbersKept _ (by simp)) (arithmetic computed)
  · exact fails _ _ (numbersKept _ (by simp)) (arithmetic computed)
  all_goals cases computed

/-- An arithmetic failure of a builtin procedure has an allowed cause. -/
theorem Builtin.apply_eq_error {builtin : Builtin} (kept : builtin.operation.Keeps P)
    (fails : builtin.operation.FailsOnly P Q) {arguments : List Value}
    (argumentsKept : ∀ number, .token (.number number) ∈ arguments → P number)
    {cause : ArithmeticError} (applied : builtin.apply arguments = .error (.arithmetic cause)) :
    Q cause := by
  unfold Builtin.apply Operation.apply at applied
  by_cases accepted : builtin.operation.arity.accepts arguments.length
  · simp only [accepted, ↓reduceIte, numberArguments] at applied
    cases found : numbersFrom 1 arguments with
    | error e =>
      simp only [found, Except.error.injEq] at applied
      exact absurd (applied ▸ found) (numbersFrom_ne_arithmetic 1 arguments cause)
    | ok numbers =>
      simp only [found] at applied
      refine Operation.compute_eq_error kept fails ?_ applied
      exact fun number member => argumentsKept number (token_mem_of_numbersFrom found number member)
  · simp only [accepted, Bool.false_eq_true, ↓reduceIte] at applied
    cases applied

end Keeping

/-! ### Arguments that are all numbers -/

/-- Arguments that are numbers are read as these numbers. -/
theorem numbersFrom_map_argument (position : Nat) (numbers : List Number) :
    numbersFrom position (numbers.map Number.argument) = .ok numbers := by
  induction numbers generalizing position with
  | nil => rfl
  | cons number rest ih =>
    rw [List.map_cons, numbersFrom]
    simp only [Number.argument, Value.number?, Token.number?, ih]

/-- With numbers as arguments, as many as it takes, an operation just computes. -/
theorem Operation.apply_numbers {operation : Operation} {numbers : List Number}
    (accepted : operation.arity.accepts numbers.length) :
    operation.apply (numbers.map Number.argument) = operation.compute numbers := by
  simp only [Operation.apply, List.length_map, accepted, ↓reduceIte, numberArguments,
    numbersFrom_map_argument]

/-! ### What every builtin procedure keeps -/

/-- Every property that all numbers have is kept. -/
theorem Builtin.keeps_true (builtin : Builtin) : builtin.operation.Keeps fun _ => True := by
  cases builtin <;> simp [Builtin.operation, Operation.Keeps]

/-- Builtin procedures keep numbers in canonical form. -/
theorem Builtin.keeps_canonical (builtin : Builtin) :
    builtin.operation.Keeps Number.Canonical := by
  cases builtin with
  | add => exact ⟨trivial, fun _ _ _ left right => Number.add_canonical left right⟩
  | multiply => exact ⟨trivial, fun _ _ _ left right => Number.mul_canonical left right⟩
  | subtract => exact fun _ _ _ left right => Number.sub_canonical left right
  | divide => exact fun _ _ _ left right => Number.div_canonical left right
  | sqrt => exact fun _ _ _ => Number.sqrt_canonical
  | abs => exact fun _ _ canonical => Number.abs_canonical canonical
  | floor => exact fun _ _ _ => Number.floor_canonical
  | ceiling => exact fun _ _ _ => Number.ceiling_canonical
  | round => exact fun _ _ _ => Number.round_canonical
  | _ => trivial

end SubstLisp
