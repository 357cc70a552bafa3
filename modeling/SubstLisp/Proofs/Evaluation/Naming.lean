import SubstLisp.Proofs.Evaluation.Invariants

/-! # The names that programs bind

A program binds only names that occur in it, in a bound value, or in a value that it has computed.
So if all of these are made of allowed atoms, the names that are bound when it ends are allowed
atoms as well (`SubstLisp.Likeness.Lawful.keeps_names`).
-/

namespace SubstLisp.Likeness

variable {c : Likeness}

/-- The bound names are allowed atoms. -/
def Names (c : Likeness) (environment : Environment) : Prop :=
  ∀ name, (environment.lookup? name).isSome → c.leaf (.identifier name)

theorem names_standard : c.Names .standard := by
  intro name bound
  cases bound

/-- A new binding of an allowed name keeps all names allowed. -/
theorem Names.define {environment : Environment} (names : c.Names environment) {name : String}
    (allowed : c.leaf (.identifier name)) (value : Value) :
    c.Names (environment.define name value) := by
  intro other bound
  rw [Environment.lookup?_define] at bound
  by_cases isName : other = name
  · rwa [isName]
  · rw [if_neg isName] at bound
    exact names other bound

/-- An evaluation beside itself, in an environment that binds allowed names to values of allowed
atoms. -/
def named (c : Likeness) : Simulation where
  toLikeness := c
  environment e f := c.alone.environment e f ∧ c.Names e

section Named

variable (equal : ∀ a b, c.span a b → a = b) (missing : ∀ builtin, c.missing builtin)
  (lawful : c.Lawful)
include equal missing lawful

/-- An evaluation that mentions allowed names only binds no others. -/
theorem named_lawful : c.named.Lawful where
  toLawful := lawful
  lookup environments allowed :=
    (alone_lawful equal missing lawful).lookup environments.1 allowed
  define environments keyword allowed same notVoid :=
    ⟨(alone_lawful equal missing lawful).define environments.1 keyword allowed same notVoid,
      environments.2.define allowed _⟩
  assign environments keyword allowed bound same notVoid :=
    ⟨(alone_lawful equal missing lawful).assign environments.1 keyword allowed bound same notVoid,
      environments.2.define allowed _⟩
  provides environments keyword :=
    (alone_lawful equal missing lawful).provides environments.1 keyword
  missing_of_not_provides _ _ _ := missing _

/-- A program of expressions that are alike themselves binds allowed names to values of allowed
atoms. -/
theorem Lawful.keeps_names {program : List Node} {environment : Environment}
    {outcome : Outcome (List Value)} (nodes : ∀ node ∈ program, c.Nodes node node)
    (binds : c.Binds environment) (names : c.Names environment)
    (runs : Runs program environment outcome) : c.Binds outcome.2 ∧ c.Names outcome.2 := by
  obtain ⟨depth, evaluated⟩ := runs
  have together := ((named_lawful equal missing lawful).evaluate depth).values
    (List.forall₂_same.mpr nodes)
  obtain ⟨-, -, -, ⟨-, bindsAfter⟩, namesAfter⟩ := together.outcome ⟨⟨rfl, binds⟩, names⟩ evaluated
  exact ⟨bindsAfter, namesAfter⟩

end Named

end SubstLisp.Likeness
