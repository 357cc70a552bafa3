import SubstLisp.Proofs.Evaluation.BuiltinResults
import SubstLisp.Proofs.Evaluation.Vocabulary

/-! # Who may change what is bound

Names are bound by definitions and bound anew by assignments, and nothing ever unbinds a name. The
keywords of both forms are values like any others, so they need not stand where they take effect:
they may be bound to names, handed to procedures and written into their bodies. But an evaluation
cannot come by them unless they occur somewhere in its expression or in what is bound
(`SubstLisp.evaluation_binds`).
-/

namespace SubstLisp

/-- A token is none of the keywords of some special forms. -/
def Token.Avoids (forms : List SpecialForm) (token : Token) : Prop :=
  ∀ form ∈ forms, token ≠ .keyword (.special form)

instance (forms : List SpecialForm) : DecidablePred (Token.Avoids forms) :=
  fun _ => inferInstanceAs (Decidable (∀ form ∈ forms, _))

/-- Bodies of several expressions are written with `begin`, and procedures as arguments with
`lambda`. All other special forms can be avoided. -/
theorem avoiding_vocabulary_lawful {forms : List SpecialForm} (sequence : .sequence ∉ forms)
    (abstraction : .abstraction ∉ forms) :
    (vocabulary (Token.Avoids forms) fun _ => True).Lawful where
  leaf_of_value := id
  value_of_leaf allowed _ := allowed
  sequence := by
    rintro form member ⟨⟩
    exact sequence member
  abstraction := by
    rintro form member ⟨⟩
    exact abstraction member
  result := by
    intro builtin arguments token _ _ applied form _
    rcases Builtin.apply_eq_ok builtin.keeps_true (fun _ _ => trivial) applied with
      ⟨number, rfl, -⟩ | ⟨value, rfl⟩
    · exact Token.noConfusion
    · exact Token.noConfusion
  failure _ _ _ := trivial

/-- What all bindings keep that the avoided forms leave possible is kept by an evaluation. -/
theorem Evaluates.keeps_of_avoids {forms : List SpecialForm} (sequence : .sequence ∉ forms)
    (abstraction : .abstraction ∉ forms) {P : Environment → Prop}
    (define : .definition ∉ forms → ∀ e name value, P e → P (e.define name value))
    (assign : .assignment ∉ forms → ∀ e name value, (e.lookup? name).isSome → P e →
      P (e.define name value))
    {node : Node} {environment : Environment} {outcome : Outcome Value}
    (made : MadeOf (Token.Avoids forms) node environment) (start : P environment)
    (evaluates : Evaluates node environment outcome) : P outcome.2 := by
  have kept : (vocabulary (Token.Avoids forms) fun _ => True).Keeps P :=
    ⟨fun allowed => define fun member => allowed .definition member rfl,
      fun allowed => assign fun member => allowed .assignment member rfl⟩
  exact (evaluates.keeps_vocabulary (avoiding_vocabulary_lawful sequence abstraction) kept made
    start).2

/-- Every expression avoids no forms. -/
theorem madeOf_avoids_nil (node : Node) (environment : Environment) :
    MadeOf (Token.Avoids []) node environment where
  leaves _ _ := List.forall_mem_nil _
  bindings _ _ _ _ _ := List.forall_mem_nil _

/-- A definition leaves no bound name without a value. -/
theorem Environment.isSome_lookup?_define {environment : Environment} {name other : String}
    (value : Value) (bound : (environment.lookup? other).isSome) :
    ((environment.define name value).lookup? other).isSome := by
  rw [lookup?_define]
  split
  · rfl
  · exact bound

/-- Binding a bound name anew binds no other names. -/
theorem Environment.isSome_lookup?_define_iff {environment : Environment} {name : String}
    (value : Value) (bound : (environment.lookup? name).isSome) (other : String) :
    ((environment.define name value).lookup? other).isSome ↔
      (environment.lookup? other).isSome := by
  rw [lookup?_define]
  by_cases isName : other = name
  · simp only [isName, ↓reduceIte, Option.isSome_some, bound]
  · simp only [isName, ↓reduceIte]

section Evaluation

variable {node : Node} {environment : Environment} {outcome : Outcome Value}
  (evaluates : Evaluates node environment outcome)
include evaluates

/-- Evaluations do nothing to an environment but bind names. -/
theorem Evaluates.keeps {P : Environment → Prop}
    (define : ∀ e name value, P e → P (e.define name value)) (start : P environment) :
    P outcome.2 := by
  refine evaluates.keeps_of_avoids (by decide) (by decide) ?_ ?_
    (madeOf_avoids_nil node environment) start
  · exact fun _ => define
  · exact fun _ e name value _ => define e name value

/-- No evaluation unbinds a name. -/
theorem Evaluates.bound_after {name : String} (bound : (environment.lookup? name).isSome) :
    (outcome.2.lookup? name).isSome :=
  evaluates.keeps (P := fun e => (e.lookup? name).isSome)
    (fun e _ value kept => e.isSome_lookup?_define value kept) bound

/-- No evaluation takes builtin procedures away or adds any. -/
theorem Evaluates.builtins_eq : outcome.2.builtins = environment.builtins :=
  evaluates.keeps (P := fun e => e.builtins = environment.builtins) (fun _ _ _ kept => kept) rfl

/-- An evaluation that meets neither of the two binding keywords leaves its environment as
it was. -/
theorem Evaluates.environment_eq
    (avoids : MadeOf (Token.Avoids [.definition, .assignment]) node environment) :
    outcome.2 = environment := by
  refine evaluates.keeps_of_avoids (P := fun e => e = environment) (by decide) (by decide) ?_ ?_
    avoids rfl
  · exact fun allowed => absurd (by decide) allowed
  · exact fun allowed => absurd (by decide) allowed

/-- An evaluation that meets no definition binds no new name, as an assignment needs a bound one. -/
theorem Evaluates.bound_after_iff
    (avoids : MadeOf (Token.Avoids [.definition]) node environment) (name : String) :
    (outcome.2.lookup? name).isSome ↔ (environment.lookup? name).isSome := by
  refine evaluates.keeps_of_avoids
    (P := fun e => (e.lookup? name).isSome ↔ (environment.lookup? name).isSome)
    (by decide) (by decide) ?_ ?_ avoids Iff.rfl
  · exact fun allowed => absurd (by decide) allowed
  · intro _ e other value bound kept
    exact (e.isSome_lookup?_define_iff value bound name).trans kept

end Evaluation

/-- **Who may change what is bound.** No evaluation unbinds a name. If neither the keyword of
definitions nor that of assignments occurs in an expression or in any bound value, its evaluation
leaves the environment as it was; without the keyword of definitions, the same names are bound
before and after. All this holds whether or not the evaluation fails. -/
theorem evaluation_binds {node : Node} {environment : Environment} {outcome : Outcome Value}
    (evaluates : Evaluates node environment outcome) :
    (∀ name, (environment.lookup? name).isSome → (outcome.2.lookup? name).isSome) ∧
    (MadeOf (Token.Avoids [.definition, .assignment]) node environment →
      outcome.2 = environment) ∧
    (MadeOf (Token.Avoids [.definition]) node environment →
      ∀ name, (outcome.2.lookup? name).isSome ↔ (environment.lookup? name).isSome) :=
  ⟨fun _ bound => evaluates.bound_after bound, evaluates.environment_eq, evaluates.bound_after_iff⟩

/-- A procedure that assigns by another name of the form, and a choice that fails by another name of
the conditional. -/
theorem evaluation_binds_by_other_names :
    let keep : Procedure := {
      parameters := [.identifier "n"]
      body := .list [.atom (.identifier "assign") ⟨1, 7⟩, .atom (.identifier "total") ⟨8, 13⟩,
        .atom (.identifier "n") ⟨14, 15⟩] ⟨0, 16⟩
      span := ⟨0, 20⟩ }
    let e := ((Environment.standard.define "total" (.token (.number (.integer 0)))).define "assign"
      (.token (.keyword (.special .assignment)))).define "keep" (.procedure keep)
    let call : Node :=
      .list [.atom (.identifier "keep") ⟨1, 5⟩, .atom (.number (.integer 7)) ⟨6, 7⟩] ⟨0, 8⟩
    let kept : Outcome Value := (.ok .void, e.define "total" (.token (.number (.integer 7))))
    let f := Environment.standard.define "choose" (.token (.keyword (.special .conditional)))
    let choice : Node := .list [.atom (.identifier "choose") ⟨1, 7⟩, .atom (.boolean false) ⟨8, 10⟩,
      .atom (.identifier "x") ⟨11, 12⟩, .atom (.identifier "y") ⟨13, 14⟩] ⟨0, 15⟩
    let failed : Outcome Value := (.error (.unbound "y" ⟨13, 14⟩), f)
    (Evaluates call e kept ∧ MadeOf (Token.Avoids [.definition]) call e ∧
      (∀ name, (e.lookup? name).isSome → (kept.2.lookup? name).isSome) ∧
      ∀ name, (kept.2.lookup? name).isSome ↔ (e.lookup? name).isSome) ∧
    Evaluates choice f failed ∧
      MadeOf (Token.Avoids [.definition, .assignment]) choice f ∧ failed.2 = f := by
  intro keep e call kept f choice failed
  have leaves : ∀ token ∈ call.leaves, Token.Avoids [.definition] token := by decide +revert
  have choiceLeaves : ∀ token ∈ choice.leaves, Token.Avoids [.definition, .assignment] token := by
    decide +revert
  have keepLeaves : ∀ token ∈ (Value.procedure keep).leaves, Token.Avoids [.definition] token := by
    decide +revert
  have bindings : e.BindsOnly (Token.Avoids [.definition]) :=
    ((Environment.bindsOnly_standard.define "total" (by decide)).define "assign"
      (by decide)).define "keep" keepLeaves
  have avoids : MadeOf (Token.Avoids [.definition]) call e := ⟨leaves, bindings⟩
  have avoidsBoth : MadeOf (Token.Avoids [.definition, .assignment]) choice f :=
    ⟨choiceLeaves, Environment.bindsOnly_standard.define "choose" (by decide)⟩
  have evaluates : Evaluates call e kept := ⟨3, rfl⟩
  have fails : Evaluates choice f failed := ⟨3, rfl⟩
  obtain ⟨stay, -, same⟩ := evaluation_binds evaluates
  obtain ⟨-, unchanged, -⟩ := evaluation_binds fails
  exact ⟨⟨evaluates, avoids, stay, same avoids⟩, fails, avoidsBoth, unchanged avoidsBoth⟩

end SubstLisp
