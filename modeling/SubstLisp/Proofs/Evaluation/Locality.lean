import SubstLisp.Proofs.Evaluation.BuiltinResults
import SubstLisp.Proofs.Evaluation.Lockstep
import SubstLisp.Proofs.Evaluation.MovedSpans

/-! # Evaluations reach only so far

An evaluation can come across the names in its expression, the names in the values that these are
bound to, and so on (`SubstLisp.Reachable`). It depends on no other binding and changes no other
binding (`SubstLisp.evaluation_local`).

The set of reachable names is fixed at the start. It stays closed while bindings change, because
whatever is bound to one of its names was made of expressions that mention only its names.
-/

namespace SubstLisp

/-- Each of the names is bound to the same value in both environments, or in neither. -/
def Environment.AgreeOn (names : String → Prop) (e f : Environment) : Prop :=
  ∀ name, names name → e.lookup? name = f.lookup? name

/-- The values bound to the names mention no others. -/
def Environment.ClosedOn (names : String → Prop) (e : Environment) : Prop :=
  ∀ name value, names name → e.lookup? name = some value →
    ∀ other, .identifier other ∈ value.leaves → names other

/-- The names that an evaluation of an expression can come across. -/
inductive Reachable (node : Node) (environment : Environment) : String → Prop where
  | occurs {name : String} (leaf : .identifier name ∈ node.leaves) :
      Reachable node environment name
  | bound {name other : String} {value : Value} (reached : Reachable node environment name)
      (found : environment.lookup? name = some value) (leaf : .identifier other ∈ value.leaves) :
      Reachable node environment other

/-- Nothing outside the reachable names is mentioned by the values bound to them. -/
theorem Reachable.closed (node : Node) (environment : Environment) :
    environment.ClosedOn (Reachable node environment) :=
  fun _ _ reached found _ leaf => .bound reached found leaf

/-- The reachable names are the least set that holds the names in an expression and is closed. -/
theorem Reachable.of_closedOn {names : String → Prop} {node : Node} {environment : Environment}
    (mentioned : ∀ name, .identifier name ∈ node.leaves → names name)
    (closed : environment.ClosedOn names) {name : String}
    (reached : Reachable node environment name) : names name := by
  induction reached with
  | occurs leaf => exact mentioned _ leaf
  | bound _ found leaf ih => exact closed _ _ ih found _ leaf

/-- Two evaluations that mention some names only, in environments which agree on these and have not
changed elsewhere since they were `start` and `otherStart`. -/
def locality (names : String → Prop) (start otherStart : Environment) : Simulation where
  span := Eq
  leaf token := ∀ name, token = .identifier name → names name
  value token := ∀ name, token = .identifier name → names name
  missing _ := True
  cause _ := True
  environment e f :=
    e.AgreeOn names f ∧ e.ClosedOn names ∧
    (∀ builtin, e.provides builtin = f.provides builtin) ∧
    ∀ name, ¬names name →
      e.lookup? name = start.lookup? name ∧ f.lookup? name = otherStart.lookup? name

section Locality

variable {names : String → Prop} {start otherStart : Environment}

/-- The names in a list of tokens are all among the allowed ones. -/
theorem locality_leaf {tokens : List Token}
    (mentioned : ∀ name, .identifier name ∈ tokens → names name) :
    ∀ token ∈ tokens, (locality names start otherStart).leaf token := by
  intro token member name isName
  rw [isName] at member
  exact mentioned name member

/-- Binding an allowed name anew to a value that mentions allowed names only. -/
theorem locality_bind {e f : Environment} {name : String} {v w : Value}
    (environments : (locality names start otherStart).environment e f) (allowed : names name)
    (same : w = v) (mentioned : ∀ other, .identifier other ∈ v.leaves → names other) :
    (locality names start otherStart).environment (e.define name v) (f.define name w) := by
  subst same
  obtain ⟨agree, closed, builtins, frame⟩ := environments
  refine ⟨?_, ?_, builtins, ?_⟩
  · intro other inside
    rw [Environment.lookup?_define, Environment.lookup?_define, agree other inside]
  · intro bound value inside found
    rw [Environment.lookup?_define] at found
    by_cases isName : bound = name
    · simp only [isName, ↓reduceIte, Option.some.injEq] at found
      exact found ▸ mentioned
    · simp only [isName, ↓reduceIte] at found
      exact closed bound value inside found
  · intro other outside
    have different : other ≠ name := fun same => outside (same ▸ allowed)
    rw [Environment.lookup?_define, Environment.lookup?_define]
    simpa only [different, ↓reduceIte] using frame other outside

/-- Mentioning the names only is kept by everything that evaluation makes of an expression. -/
theorem locality_lawfulLikeness : (locality names start otherStart).toLikeness.Lawful where
  leaf_of_value := id
  value_of_leaf allowed _ := allowed
  sequence _ := Token.noConfusion
  abstraction _ := Token.noConfusion
  result := by
    intro builtin arguments token _ _ applied name isName
    rcases Builtin.apply_eq_ok builtin.keeps_true (fun _ _ => trivial) applied with
      ⟨number, same, -⟩ | ⟨value, same⟩
    · rw [isName] at same
      cases same
    · rw [isName] at same
      cases same
  failure _ _ _ := trivial

/-- Environments that agree on the names and are closed on them stay so with every binding. -/
theorem locality_lawful : (locality names start otherStart).Lawful where
  toLawful := locality_lawfulLikeness
  lookup := by
    intro e f name environments allowed
    rw [← environments.1 name (allowed name rfl)]
    cases found : e.lookup? name with
    | none => exact .none
    | some value =>
      have mentioned := environments.2.1 name value (allowed name rfl) found
      refine .some (Likeness.values_self (fun _ _ => Iff.rfl) ?_ (locality_leaf mentioned))
      rintro token rfl other rfl
      exact mentioned other (List.mem_singleton.mpr rfl)
  define := by
    intro e f name v w environments _ allowed same _
    exact locality_bind environments (allowed name rfl) (same.eq fun _ _ => Iff.rfl)
      fun other leaf => same.leaves locality_lawfulLikeness _ leaf other rfl
  assign := by
    intro e f name v w environments _ allowed _ same _
    exact locality_bind environments (allowed name rfl) (same.eq fun _ _ => Iff.rfl)
      fun other leaf => same.leaves locality_lawfulLikeness _ leaf other rfl
  provides environments _ := environments.2.2.1 _
  missing_of_not_provides _ _ _ := trivial

end Locality

/-- **Evaluation is local.** An evaluation has the same result in two environments with the same
builtin procedures that agree on the names it can come across. The environments it leaves agree on
these again, and neither run touches any other name. -/
theorem evaluation_local {node : Node} {e f : Environment} {outcome : Outcome Value}
    (builtins : ∀ builtin, e.provides builtin = f.provides builtin)
    (agree : e.AgreeOn (Reachable node e) f) (evaluates : Evaluates node e outcome) :
    ∃ after, Evaluates node f (outcome.1, after) ∧
      outcome.2.AgreeOn (Reachable node e) after ∧
      ∀ name, ¬Reachable node e name →
        outcome.2.lookup? name = e.lookup? name ∧ after.lookup? name = f.lookup? name := by
  let simulation := locality (Reachable node e) e f
  have environments : simulation.environment e f :=
    ⟨agree, Reachable.closed node e, builtins, fun _ _ => ⟨rfl, rfl⟩⟩
  have nodes : simulation.Nodes node node :=
    Likeness.nodes_self (fun _ _ => Iff.rfl) (locality_leaf fun _ leaf => .occurs leaf)
  obtain ⟨⟨result, after⟩, other, results, agreeAfter, -, -, frame⟩ :=
    locality_lawful.evaluates nodes environments evaluates
  have same : result = outcome.1 := Likeness.Results.eq (fun _ _ => Iff.rfl) results
  subst same
  exact ⟨after, other, agreeAfter, frame⟩

/-- A call of a procedure that assigns to a global name, beside an unrelated binding. -/
theorem evaluation_local_beside_another_binding :
    let callee : Procedure := {
      parameters := [.identifier "n"]
      body := .list [.atom (.keyword (.special .assignment)) ⟨1, 5⟩,
        .atom (.identifier "total") ⟨6, 11⟩, .atom (.identifier "n") ⟨12, 13⟩] ⟨0, 14⟩
      span := ⟨0, 20⟩ }
    let e := (Environment.standard.define "keep" (.procedure callee)).define "total" .void
    let f := e.define "other" (.token (.boolean true))
    let node : Node :=
      .list [.atom (.identifier "keep") ⟨1, 5⟩, .atom (.number (.integer 7)) ⟨6, 7⟩] ⟨0, 8⟩
    (∀ builtin, e.provides builtin = f.provides builtin) ∧
    e.AgreeOn (Reachable node e) f ∧
    Evaluates node e (.ok .void, e.define "total" (.token (.number (.integer 7)))) ∧
    ∃ after, Evaluates node f (.ok .void, after) ∧
      (e.define "total" (.token (.number (.integer 7)))).AgreeOn (Reachable node e) after ∧
      ∀ name, ¬Reachable node e name →
        (e.define "total" (.token (.number (.integer 7)))).lookup? name = e.lookup? name ∧
          after.lookup? name = f.lookup? name := by
  intro callee e f node
  have builtins : ∀ builtin, e.provides builtin = f.provides builtin := fun _ => rfl
  have reached : ∀ name, Reachable node e name → name ∈ ["keep", "total", "n"] := by
    intro name reachable
    induction reachable with
    | @occurs name leaf =>
      simp [node, Node.leaves, Node.leavesAll] at leaf
      simp [leaf]
    | @bound name other value _ found leaf ih =>
      simp only [e, Environment.lookup?_define] at found
      by_cases isTotal : name = "total"
      · simp only [isTotal, ↓reduceIte, Option.some.injEq] at found
        subst found
        cases leaf
      · by_cases isKeep : name = "keep"
        · simp [isKeep] at found
          subst found
          simp [Value.leaves, callee, Node.leaves, Node.leavesAll] at leaf
          rcases leaf with rfl | rfl | rfl <;> simp
        · simp [isTotal, isKeep, Environment.lookup?, Environment.standard] at found
  have agree : e.AgreeOn (Reachable node e) f := by
    intro name reachable
    have different : name ≠ "other" := by
      rintro rfl
      exact absurd (reached _ reachable) (by decide)
    simp only [f, Environment.lookup?_define, different, ↓reduceIte]
  have evaluates : Evaluates node e (.ok .void, e.define "total" (.token (.number (.integer 7)))) :=
    ⟨3, rfl⟩
  exact ⟨builtins, agree, evaluates, evaluation_local builtins agree evaluates⟩

end SubstLisp
