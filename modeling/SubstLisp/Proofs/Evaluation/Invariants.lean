import SubstLisp.Proofs.Evaluation.Lockstep
import SubstLisp.Proofs.Evaluation.MovedSpans
import SubstLisp.Proofs.Evaluation.Programs

/-! # Evaluations beside themselves

Where only equal spans are alike, an expression or a value is alike itself if its atoms are allowed,
and to nothing else. A likeness then says of a single evaluation what it can meet: if the program
and all bound values are made of allowed atoms, so are the values of the program, and so is all that
is bound when it ends (`SubstLisp.Likeness.Lawful.keeps`). A property of environments that every
binding keeps is kept along the way (`SubstLisp.Likeness.Lawful.keeps_invariant`); only those
bindings count that the allowed keywords can ask for.
-/

namespace SubstLisp.Likeness

variable {c : Likeness}

/-- The bound values are made of allowed atoms. -/
def Binds (c : Likeness) (environment : Environment) : Prop :=
  ∀ name value, environment.lookup? name = some value → c.Values value value

theorem binds_standard : c.Binds .standard := by
  intro name value found
  cases found

/-- A new binding is to a value of allowed atoms like the others. -/
theorem Binds.define {environment : Environment} (binds : c.Binds environment) {name : String}
    {value : Value} (allowed : c.Values value value) : c.Binds (environment.define name value) := by
  intro other bound found
  rw [Environment.lookup?_define] at found
  by_cases isName : other = name
  · rw [if_pos isName] at found
    cases found
    exact allowed
  · rw [if_neg isName] at found
    exact binds other bound found

/-- An evaluation beside itself, in an environment that binds values of allowed atoms. -/
def alone (c : Likeness) : Simulation where
  toLikeness := c
  environment e f := e = f ∧ c.Binds e

/-- An evaluation beside itself, as long as its environment has the property `P` as well. -/
def guarded (c : Likeness) (P : Environment → Prop) : Simulation where
  toLikeness := c
  environment e f := c.alone.environment e f ∧ P e

/-- New bindings keep the property `P`, and so do other values for bound names, wherever their
keywords are allowed. -/
structure Keeps (c : Likeness) (P : Environment → Prop) : Prop where
  define : c.leaf (.keyword (.special .definition)) → ∀ e name value, P e → P (e.define name value)
  assign : c.leaf (.keyword (.special .assignment)) → ∀ e name value, (e.lookup? name).isSome →
    P e → P (e.define name value)

section Alone

variable (equal : ∀ a b, c.span a b → a = b) (missing : ∀ builtin, c.missing builtin)
  (lawful : c.Lawful)
include equal missing lawful

/-- An evaluation beside itself stays alike, as nothing can differ. -/
theorem alone_lawful : c.alone.Lawful where
  toLawful := lawful
  lookup := by
    intro e f name environments _
    obtain ⟨rfl, binds⟩ := environments
    cases found : e.lookup? name with
    | none => exact .none
    | some value => exact .some (binds name value found)
  define := by
    intro e f name v w environments _ _ same _
    obtain ⟨rfl, binds⟩ := environments
    obtain rfl := same.eq_of_span_eq equal
    exact ⟨rfl, binds.define same⟩
  assign := by
    intro e f name v w environments _ _ _ same _
    obtain ⟨rfl, binds⟩ := environments
    obtain rfl := same.eq_of_span_eq equal
    exact ⟨rfl, binds.define same⟩
  provides := by
    intro e f builtin environments _
    rw [environments.1]
  missing_of_not_provides _ _ _ := missing _

/-- A property that every binding keeps can be carried along. -/
theorem guarded_lawful {P : Environment → Prop} (kept : c.Keeps P) : (c.guarded P).Lawful where
  toLawful := lawful
  lookup environments allowed :=
    (alone_lawful equal missing lawful).lookup environments.1 allowed
  define := by
    intro e f name v w environments keyword allowed same notVoid
    refine ⟨?_, kept.define keyword e name v environments.2⟩
    exact (alone_lawful equal missing lawful).define environments.1 keyword allowed same notVoid
  assign := by
    intro e f name v w environments keyword allowed bound same notVoid
    refine ⟨?_, kept.assign keyword e name v bound environments.2⟩
    exact (alone_lawful equal missing lawful).assign environments.1 keyword allowed bound same
      notVoid
  provides environments keyword :=
    (alone_lawful equal missing lawful).provides environments.1 keyword
  missing_of_not_provides _ _ _ := missing _

/-- What a program of expressions that are alike themselves leads to is alike to something, and so
is all that it binds. -/
theorem Lawful.runs {program : List Node} {environment : Environment}
    {outcome : Outcome (List Value)} (nodes : ∀ node ∈ program, c.Nodes node node)
    (binds : c.Binds environment) (runs : Runs program environment outcome) :
    (∃ result, c.Results (List.Forall₂ c.Values) outcome.1 result) ∧ c.Binds outcome.2 := by
  obtain ⟨depth, evaluated⟩ := runs
  have together := ((alone_lawful equal missing lawful).evaluate depth).values
    (List.forall₂_same.mpr nodes)
  obtain ⟨⟨result, after⟩, -, results, -, kept⟩ := together.outcome ⟨rfl, binds⟩ evaluated
  exact ⟨⟨result, results⟩, kept⟩

end Alone

section

variable (spans : ∀ a b, c.span a b ↔ a = b) (missing : ∀ builtin, c.missing builtin)
  (lawful : c.Lawful)
include spans missing lawful

/-- An expression of allowed atoms has a result of allowed atoms and binds no other values. What the
bindings keep is true of the environment it leaves. -/
theorem Lawful.keeps_invariant {P : Environment → Prop} (kept : c.Keeps P) {node : Node}
    {environment : Environment} {outcome : Outcome Value}
    (leaves : ∀ token ∈ node.leaves, c.leaf token) (binds : c.Binds environment)
    (start : P environment) (evaluates : Evaluates node environment outcome) :
    c.Results c.Values outcome.1 outcome.1 ∧ c.Binds outcome.2 ∧ P outcome.2 := by
  have nodes : c.Nodes node node := nodes_self spans leaves
  have guarded := guarded_lawful (fun a b => (spans a b).mp) missing lawful kept
  obtain ⟨⟨result, after⟩, -, results, ⟨-, bindsAfter⟩, keptAfter⟩ :=
    guarded.evaluates nodes ⟨⟨rfl, binds⟩, start⟩ evaluates
  have same : result = outcome.1 := Likeness.Results.eq spans results
  exact ⟨same ▸ results, bindsAfter, keptAfter⟩

/-- A program of allowed atoms leaves and binds values of allowed atoms only. -/
theorem Lawful.keeps {program : List Node} {environment : Environment}
    {outcome : Outcome (List Value)}
    (leaves : ∀ node ∈ program, ∀ token ∈ node.leaves, c.leaf token) (binds : c.Binds environment)
    (runs : Runs program environment outcome) :
    (∀ values, outcome.1 = .ok values → ∀ value ∈ values, c.Values value value) ∧
      c.Binds outcome.2 := by
  have nodes : ∀ node ∈ program, c.Nodes node node :=
    fun node member => nodes_self spans (leaves node member)
  obtain ⟨⟨result, results⟩, kept⟩ :=
    lawful.runs (fun a b => (spans a b).mp) missing nodes binds runs
  refine ⟨?_, kept⟩
  intro values isOk
  rw [isOk] at results
  cases results with
  | @ok _ others same =>
    -- Values are alike to nothing but themselves.
    have equal : values = others := by
      rw [← List.forall₂_eq_eq_eq]
      exact same.imp fun _ _ alike => (alike.eq spans).symm
    rw [← equal] at same
    exact List.forall₂_same.mp same

end

end SubstLisp.Likeness
