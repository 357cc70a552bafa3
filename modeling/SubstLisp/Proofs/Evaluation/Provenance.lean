import SubstLisp.Proofs.Evaluation.Invariants
import SubstLisp.Proofs.Reading.Places

/-! # Where the spans of errors come from

Evaluation makes up no spans. Where it builds an expression, be it a body of several expressions, a
procedure written as an argument or an atom that replaces another, it takes the span of one that is
there. So if all spans in a program and in the bound values have been seen, the span of an error has
been seen too, and so have the spans in all values that are bound on the way
(`SubstLisp.Runs.spans_seen`).
-/

namespace SubstLisp

/-- An evaluation beside itself that meets only spans that have been seen. -/
def provenance (seen : Span → Prop) : Likeness where
  span left right := left = right ∧ seen left
  leaf _ := True
  value _ := True
  missing _ := True
  cause _ := True

variable {seen : Span → Prop}

/-- Evaluation makes no spans of its own. -/
theorem provenance_lawful : (provenance seen).Lawful where
  leaf_of_value _ := trivial
  value_of_leaf _ _ := trivial
  sequence := trivial
  abstraction := trivial
  result _ _ _ := trivial
  failure _ _ _ := trivial

/-- Alike failures have alike spans. -/
theorem Likeness.Errors.span {c : Likeness} {first second : EvaluationError}
    (same : c.Errors first second) : c.span first.span second.span := by
  cases same <;> assumption

/-- An expression whose spans have all been seen is alike itself. -/
theorem provenance_nodes {node : Node} (spans : ∀ part ∈ node.parts, seen part.span) :
    (provenance seen).Nodes node node := by
  induction node using Node.induction with
  | atom token span =>
    exact .atom trivial ⟨rfl, spans _ (List.mem_singleton.mpr rfl)⟩
  | list children span ih =>
    obtain ⟨own, inside⟩ := Node.forall_mem_parts_list.mp spans
    exact .list (List.forall₂_same.mpr fun child member => ih child member (inside child member))
      ⟨rfl, own⟩

/-- The spans of errors, and those in the bound values, are spans that have been seen. -/
theorem Runs.spans_seen {program : List Node} {environment : Environment}
    {outcome : Outcome (List Value)}
    (spans : ∀ node ∈ program, ∀ part ∈ node.parts, seen part.span)
    (binds : (provenance seen).Binds environment) (runs : Runs program environment outcome) :
    (∀ cause, outcome.1 = .error cause → seen cause.span) ∧
      (provenance seen).Binds outcome.2 := by
  have nodes : ∀ node ∈ program, (provenance seen).Nodes node node :=
    fun node member => provenance_nodes (spans node member)
  have equal : ∀ a b, (provenance seen).span a b → a = b := fun _ _ alike => alike.1
  obtain ⟨⟨result, results⟩, kept⟩ :=
    provenance_lawful.runs equal (fun _ => trivial) nodes binds runs
  refine ⟨?_, kept⟩
  intro cause failed
  rw [failed] at results
  cases results with
  | error same => exact same.span.2

end SubstLisp
