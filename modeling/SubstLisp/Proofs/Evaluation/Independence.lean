import SubstLisp.Proofs.Evaluation.Bindings
import SubstLisp.Proofs.Evaluation.Locality

/-! # Independent evaluations commute

Two expressions are independent if no name can be reached from both. Evaluated one after the other,
in either order, they have the same results and leave the same bindings, whether or not they fail
(`SubstLisp.independent_evaluations_commute`).

The first evaluation may bind names, but none that the second one can reach. So the second one
neither sees what has been done nor undoes it.
-/

namespace SubstLisp

/-- No name can be reached from both expressions. -/
def Independent (first second : Node) (environment : Environment) : Prop :=
  ∀ name, Reachable first environment name → ¬Reachable second environment name

/-- Of two independent expressions, each is independent of the other. -/
theorem Independent.symm {first second : Node} {environment : Environment}
    (independent : Independent first second environment) :
    Independent second first environment :=
  fun name reachesSecond reachesFirst => independent name reachesFirst reachesSecond

/-- An evaluation does not get out of a set of names which is closed at its start. -/
theorem Evaluates.confined {names : String → Prop} {node : Node} {e f : Environment}
    {outcome : Outcome Value} (mentioned : ∀ name, .identifier name ∈ node.leaves → names name)
    (closed : e.ClosedOn names) (agree : e.AgreeOn names f) (builtins : e.builtins = f.builtins)
    (evaluates : Evaluates node e outcome) :
    ∃ after, Evaluates node f (outcome.1, after) ∧ outcome.2.AgreeOn names after ∧
      ∀ name, ¬names name →
        outcome.2.lookup? name = e.lookup? name ∧ after.lookup? name = f.lookup? name := by
  have environments : (locality names e f).environment e f := by
    refine ⟨agree, closed, fun builtin => ?_, fun _ _ => ⟨rfl, rfl⟩⟩
    rw [Environment.provides, Environment.provides, builtins]
  obtain ⟨⟨result, after⟩, other, results, agreeAfter, -, -, frame⟩ := locality_lawful.evaluates
    (Likeness.nodes_self (fun _ _ => Iff.rfl) (locality_leaf mentioned)) environments evaluates
  obtain rfl : result = outcome.1 := Likeness.Results.eq (fun _ _ => Iff.rfl) results
  exact ⟨after, other, agreeAfter, frame⟩

/-- Names that cannot be reached stay bound as they are. -/
theorem Evaluates.lookup?_of_not_reachable {node : Node} {environment : Environment}
    {outcome : Outcome Value} (evaluates : Evaluates node environment outcome) {name : String}
    (outside : ¬Reachable node environment name) :
    outcome.2.lookup? name = environment.lookup? name := by
  obtain ⟨_, _, _, frame⟩ := evaluates.confined (fun _ => .occurs)
    (Reachable.closed node environment) (fun _ _ => rfl) rfl
  exact (frame name outside).1

/-- An evaluation has the same result after an independent one. It binds the names it can reach as
it would have done alone, and no others. -/
theorem Evaluates.after_independent {first second : Node} {environment : Environment}
    {left right : Outcome Value} (independent : Independent first second environment)
    (evaluatesFirst : Evaluates first environment left)
    (evaluatesSecond : Evaluates second environment right) :
    ∃ after, Evaluates second left.2 (right.1, after) ∧
      ∀ name, (Reachable second environment name → after.lookup? name = right.2.lookup? name) ∧
        (¬Reachable second environment name → after.lookup? name = left.2.lookup? name) := by
  have agree : environment.AgreeOn (Reachable second environment) left.2 := fun name reached =>
    (evaluatesFirst.lookup?_of_not_reachable (independent.symm name reached)).symm
  obtain ⟨after, evaluates, agreeAfter, frame⟩ := evaluatesSecond.confined (fun _ => .occurs)
    (Reachable.closed second environment) agree evaluatesFirst.builtins_eq.symm
  refine ⟨after, evaluates, fun name => ⟨fun reached => ?_, fun outside => ?_⟩⟩
  · exact (agreeAfter name reached).symm
  · exact (frame name outside).2

/-- **Independent evaluations commute.** If two independent expressions can be evaluated, each can
be evaluated after the other. Whichever comes first, both have the results they have alone, and in
the end the same names are bound to the same values. -/
theorem independent_evaluations_commute {first second : Node} {environment : Environment}
    {left right : Outcome Value} (independent : Independent first second environment)
    (evaluatesFirst : Evaluates first environment left)
    (evaluatesSecond : Evaluates second environment right) :
    (∃ both, Evaluates second left.2 both) ∧ (∃ both, Evaluates first right.2 both) ∧
    ∀ leftThenRight rightThenLeft, Evaluates second left.2 leftThenRight →
      Evaluates first right.2 rightThenLeft →
      rightThenLeft.1 = left.1 ∧ leftThenRight.1 = right.1 ∧
      ∀ name, leftThenRight.2.lookup? name = rightThenLeft.2.lookup? name := by
  obtain ⟨secondLast, runSecond, bindsSecond⟩ :=
    Evaluates.after_independent independent evaluatesFirst evaluatesSecond
  obtain ⟨firstLast, runFirst, bindsFirst⟩ :=
    Evaluates.after_independent independent.symm evaluatesSecond evaluatesFirst
  refine ⟨⟨_, runSecond⟩, ⟨_, runFirst⟩, ?_⟩
  intro leftThenRight rightThenLeft otherSecond otherFirst
  obtain rfl := runSecond.outcome_unique otherSecond
  obtain rfl := runFirst.outcome_unique otherFirst
  refine ⟨rfl, rfl, fun name => ?_⟩
  by_cases reached : Reachable second environment name
  · rw [(bindsSecond name).1 reached, (bindsFirst name).2 (independent.symm name reached)]
  · rw [(bindsSecond name).2 reached]
    by_cases reachedFirst : Reachable first environment name
    · rw [(bindsFirst name).1 reachedFirst]
    · rw [(bindsFirst name).2 reachedFirst, evaluatesFirst.lookup?_of_not_reachable reachedFirst,
        evaluatesSecond.lookup?_of_not_reachable reached]

/-- An expression that reads a name, binds another and then fails, and one that binds a third. The
tables that the two orders leave list the new names in different orders. -/
theorem independent_evaluations_commute_past_a_failure :
    let seven : Value := .token (.number (.integer 7))
    let yes : Value := .token (.boolean true)
    let e := Environment.standard.define "total" seven
    let first : Node := .list [.atom (.keyword (.special .sequence)) ⟨1, 6⟩,
      .list [.atom (.keyword (.special .definition)) ⟨8, 14⟩, .atom (.identifier "q") ⟨15, 16⟩,
        .atom (.identifier "total") ⟨17, 22⟩] ⟨7, 23⟩,
      .atom (.identifier "missing") ⟨24, 31⟩] ⟨0, 32⟩
    let second : Node := .list [.atom (.keyword (.special .definition)) ⟨1, 7⟩,
      .atom (.identifier "p") ⟨8, 9⟩, .atom (.boolean true) ⟨10, 12⟩] ⟨0, 13⟩
    let left : Outcome Value := (.error (.unbound "missing" ⟨24, 31⟩), e.define "q" seven)
    let right : Outcome Value := (.ok .void, e.define "p" yes)
    let leftThenRight : Outcome Value := (.ok .void, left.2.define "p" yes)
    let rightThenLeft : Outcome Value := (left.1, right.2.define "q" seven)
    Independent first second e ∧ Evaluates first e left ∧ Evaluates second e right ∧
    Evaluates second left.2 leftThenRight ∧ Evaluates first right.2 rightThenLeft ∧
    rightThenLeft.1 = left.1 ∧ leftThenRight.1 = right.1 ∧
    ∀ name, leftThenRight.2.lookup? name = rightThenLeft.2.lookup? name := by
  intro seven yes e first second left right leftThenRight rightThenLeft
  have plain : e.BindsOnly fun token => ∀ name, token ≠ .identifier name :=
    Environment.bindsOnly_standard.define "total" (by simp [seven, Value.leaves])
  have closed : ∀ names, e.ClosedOn names := fun _ name value _ found other leaf =>
    absurd rfl (plain name value found _ leaf other)
  have independent : Independent first second e := by
    intro name reachesFirst reachesSecond
    have inFirst : name ∈ ["q", "total", "missing"] :=
      reachesFirst.of_closedOn (by simp [first, Node.leaves, Node.leavesAll]) (closed _)
    have inSecond : name ∈ ["p"] :=
      reachesSecond.of_closedOn (by simp [second, Node.leaves, Node.leavesAll]) (closed _)
    rw [List.mem_singleton] at inSecond
    subst inSecond
    exact absurd inFirst (by decide)
  have evaluatesFirst : Evaluates first e left := ⟨3, rfl⟩
  have evaluatesSecond : Evaluates second e right := ⟨3, rfl⟩
  have thenRight : Evaluates second left.2 leftThenRight := ⟨3, rfl⟩
  have thenLeft : Evaluates first right.2 rightThenLeft := ⟨3, rfl⟩
  obtain ⟨-, -, commute⟩ :=
    independent_evaluations_commute independent evaluatesFirst evaluatesSecond
  exact ⟨independent, evaluatesFirst, evaluatesSecond, thenRight, thenLeft,
    commute _ _ thenRight thenLeft⟩

end SubstLisp
