import SubstLisp.Proofs.Evaluation.Lockstep
import SubstLisp.Proofs.Evaluation.MovedSpans

/-! # Evaluation does not look at spans

When all spans of a program and of an environment are moved, whatever the move, the program has the
same outcome with its spans moved (`SubstLisp.runIn_mapSpans`). Spans are handed on and never read,
not even compared.
-/

namespace SubstLisp

/-- An evaluation beside the same one with moved spans. -/
def relocation (f : Span → Span) : Simulation where
  span left right := right = f left
  leaf _ := True
  value _ := True
  missing _ := True
  cause _ := True
  environment e moved := moved = e.mapSpans f

variable (f : Span → Span)

/-- Bindings to a value and to the one with its spans moved leave environments that differ by the
move. -/
theorem relocation_bind {e moved : Environment} {name : String} {v w : Value}
    (environments : (relocation f).environment e moved) (same : (relocation f).Values v w) :
    (relocation f).environment (e.define name v) (moved.define name w) := by
  have values := same.eq_mapSpans fun _ _ alike => alike
  have environment : moved = e.mapSpans f := environments
  rw [values, environment]
  exact (e.define_mapSpans f name v).symm

/-- An evaluation with all spans moved goes on like the original one. -/
theorem relocation_lawful : (relocation f).Lawful where
  leaf_of_value _ := trivial
  value_of_leaf _ _ := trivial
  sequence := trivial
  abstraction := trivial
  result _ _ _ := trivial
  failure _ _ _ := trivial
  lookup := by
    intro e moved name environments _
    have environment : moved = e.mapSpans f := environments
    rw [environment, Environment.lookup?_mapSpans]
    cases e.lookup? name with
    | none => exact .none
    | some value =>
      refine .some (Likeness.values_mapSpans (fun _ => rfl) ?_ ?_)
      · exact fun _ _ => trivial
      · exact fun _ _ => trivial
  define environments _ _ same _ := relocation_bind f environments same
  assign environments _ _ _ same _ := relocation_bind f environments same
  provides := by
    intro e moved builtin environments _
    have environment : moved = e.mapSpans f := environments
    rw [environment]
    rfl
  missing_of_not_provides _ _ _ := trivial

/-- The outcome of an evaluation with all spans moved is the original one with its spans moved. -/
theorem relocation_outcome {left right : Outcome (List Value)}
    (results : (relocation f).Results (List.Forall₂ (relocation f).Values) left.1 right.1)
    (environments : (relocation f).environment left.2 right.2) : right = left.mapSpans f := by
  obtain ⟨result, after⟩ := left
  obtain ⟨other, moved⟩ := right
  have environment : moved = after.mapSpans f := environments
  rw [environment]
  cases results with
  | error alike => rw [Outcome.mapSpans, alike.eq_mapSpans fun _ _ same => same]
  | ok alike =>
    rw [Outcome.mapSpans]
    congr 2
    clear environments
    induction alike with
    | nil => rfl
    | cons head _ ih => rw [List.map_cons, ih, head.eq_mapSpans fun _ _ same => same]

/-- **Evaluation does not look at spans.** -/
theorem runIn_mapSpans (depth : Nat) (program : List Node) (environment : Environment) :
    ((evaluate depth).values (program.map (Node.mapSpans f))).runIn (environment.mapSpans f) =
      (((evaluate depth).values program).runIn environment).map (Outcome.mapSpans f) := by
  have nodes : List.Forall₂ (relocation f).Nodes program (program.map (Node.mapSpans f)) := by
    rw [List.forall₂_map_right_iff, List.forall₂_same]
    exact fun _ _ => Likeness.nodes_mapSpans (fun _ => rfl) fun _ _ => trivial
  have together := ((relocation_lawful f).evaluate depth).values nodes environment _ rfl
  generalize ((evaluate depth).values program).runIn environment = first,
    ((evaluate depth).values (program.map (Node.mapSpans f))).runIn (environment.mapSpans f) =
      second at together ⊢
  cases together with
  | none => rfl
  | some related => rw [Option.map_some, relocation_outcome f related.1 related.2]

end SubstLisp
