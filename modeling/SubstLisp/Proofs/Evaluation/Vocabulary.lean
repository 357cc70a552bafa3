import SubstLisp.Proofs.Evaluation.Invariants

/-! # The vocabulary of an evaluation

A vocabulary is a set of tokens. If an expression and all bound values are made of its tokens, and
builtin procedures stay inside it, then the evaluation never leaves it: its value is made of these
tokens, and so is everything that is bound when it ends, whether or not it fails
(`SubstLisp.Evaluates.keeps_vocabulary`). Keywords are tokens like any others, so a vocabulary also
says which forms and which builtin procedures an evaluation can use at all.
-/

namespace SubstLisp

/-- The bound values are made of allowed tokens, the parameters of procedures included. -/
def Environment.BindsOnly (allowed : Token → Prop) (environment : Environment) : Prop :=
  ∀ name value, environment.lookup? name = some value → ∀ token ∈ value.leaves, allowed token

/-- An expression and all bound values are made of allowed tokens. -/
structure MadeOf (allowed : Token → Prop) (node : Node) (environment : Environment) : Prop where
  leaves : ∀ token ∈ node.leaves, allowed token
  bindings : environment.BindsOnly allowed

/-- Evaluations of allowed tokens, in which builtin procedures fail for some causes only. -/
def vocabulary (allowed : Token → Prop) (cause : BuiltinError → Prop) : Likeness where
  span := Eq
  leaf := allowed
  value := allowed
  missing _ := True
  cause := cause

section Vocabulary

variable {allowed : Token → Prop} {cause : BuiltinError → Prop}

theorem Environment.bindsOnly_standard : Environment.standard.BindsOnly allowed := by
  intro name value found
  cases found

/-- A new binding to a value of allowed tokens keeps the environment within them. -/
theorem Environment.BindsOnly.define {environment : Environment}
    (binds : environment.BindsOnly allowed) (name : String) {value : Value}
    (leaves : ∀ token ∈ value.leaves, allowed token) :
    (environment.define name value).BindsOnly allowed := by
  intro other bound found
  rw [Environment.lookup?_define] at found
  by_cases isName : other = name
  · rw [if_pos isName] at found
    cases found
    exact leaves
  · rw [if_neg isName] at found
    exact binds other bound found

/-- What is made of allowed tokens is evaluated where all values are made of them. -/
theorem MadeOf.binds {node : Node} {environment : Environment}
    (made : MadeOf allowed node environment) : (vocabulary allowed cause).Binds environment := by
  intro name value found
  have leaves := made.bindings name value found
  refine Likeness.values_self (fun _ _ => Iff.rfl) ?_ leaves
  rintro token rfl
  exact leaves token (List.mem_singleton.mpr rfl)

/-- What an outcome is made of: a value and bindings of allowed tokens, or an allowed failure of a
builtin procedure. -/
structure OutcomeOf (allowed : Token → Prop) (cause : BuiltinError → Prop)
    (outcome : Outcome Value) : Prop where
  value : ∀ value, outcome.1 = .ok value → ∀ token ∈ value.leaves, allowed token
  bindings : outcome.2.BindsOnly allowed
  failure : ∀ builtin error span, outcome.1 = .error (.builtin builtin error span) → cause error

/-- An evaluation does not leave its vocabulary, and it keeps what all its bindings keep. -/
theorem Evaluates.keeps_vocabulary (lawful : (vocabulary allowed cause).Lawful)
    {P : Environment → Prop} (kept : (vocabulary allowed cause).Keeps P) {node : Node}
    {environment : Environment} {outcome : Outcome Value}
    (made : MadeOf allowed node environment) (start : P environment)
    (evaluates : Evaluates node environment outcome) :
    OutcomeOf allowed cause outcome ∧ P outcome.2 := by
  obtain ⟨results, binds, keptAfter⟩ := lawful.keeps_invariant (fun _ _ => Iff.rfl)
    (fun _ => trivial) kept made.leaves made.binds start evaluates
  refine ⟨⟨?_, fun name value found => (binds name value found).leaves lawful, ?_⟩, keptAfter⟩
  · intro value isValue
    rw [isValue] at results
    cases results with
    | ok same => exact same.leaves lawful
  · intro builtin error span isError
    rw [isError] at results
    cases results with
    | error same =>
      cases same with
      | builtin allowed _ => exact allowed

end Vocabulary

end SubstLisp
