import SubstLisp.Proofs.Evaluation.Likeness
import SubstLisp.Proofs.Evaluation.Spans

/-! # Likeness up to a move of spans

Where spans `a` and `b` are alike if and only if `f a` and `g b` are equal, alike things are exactly
those that become equal when the spans of one are moved by `f` and those of the other by `g`. Where
only `f a` is alike to a span `a`, these are the things whose spans differ by `f`. The identity
moves nothing, so two things are equal where only equal spans are alike.
-/

namespace SubstLisp

/-- The tokens that occur in a value, the parameters of a procedure included. -/
def Value.leaves : Value → List Token
  | .token atom => [atom]
  | .procedure callee => callee.parameters ++ callee.body.leaves
  | .void => []

namespace Likeness

variable {c : Likeness} {f g : Span → Span}

/-- The atoms of alike expressions are allowed. -/
theorem Nodes.leaves {m n : Node} (same : c.Nodes m n) : ∀ token ∈ m.leaves, c.leaf token := by
  induction m using Node.induction generalizing n with
  | atom token span =>
    cases same with
    | atom allowed _ => simpa only [Node.leaves, List.mem_singleton, forall_eq] using allowed
  | list children span ih =>
    cases same with
    | list members _ =>
      simp only [Node.leaves, Node.leavesAll_eq_flatMap, List.mem_flatMap]
      intro token inside
      obtain ⟨child, member, occurs⟩ := inside
      induction members with
      | nil => cases member
      | cons head _ rest =>
        rcases List.mem_cons.mp member with rfl | later
        · exact ih _ List.mem_cons_self head token occurs
        · exact rest (fun other inside => ih other (List.mem_cons_of_mem _ inside)) later

/-- The atoms of alike values are allowed. -/
theorem Values.leaves (lawful : c.Lawful) {v w : Value} (same : c.Values v w) :
    ∀ token ∈ v.leaves, c.leaf token := by
  cases same with
  | token allowed =>
    simpa only [Value.leaves, List.mem_singleton, forall_eq] using lawful.leaf_of_value allowed
  | procedure callees =>
    intro token member
    rcases List.mem_append.mp member with parameter | occurs
    · exact callees.leaves token parameter
    · exact callees.body.leaves token occurs
  | void => simp only [Value.leaves, List.not_mem_nil, false_imp_iff, implies_true]

section Entering

variable (spans : ∀ a b, f a = g b → c.span a b)
include spans

/-- Expressions of allowed atoms are alike if moving their spans makes them equal. -/
theorem nodes_of_mapSpans_eq {m n : Node} (same : m.mapSpans f = n.mapSpans g)
    (leaves : ∀ token ∈ m.leaves, c.leaf token) : c.Nodes m n := by
  induction m using Node.induction generalizing n with
  | atom token span =>
    cases n with
    | list _ _ => cases same
    | atom other otherSpan =>
      obtain ⟨rfl, moved⟩ := Node.atom.inj same
      exact .atom (leaves token (List.mem_singleton.mpr rfl)) (spans _ _ moved)
  | list children span ih =>
    cases n with
    | atom _ _ => cases same
    | list others otherSpan =>
      obtain ⟨members, moved⟩ := Node.list.inj same
      simp only [Node.leaves, Node.leavesAll_eq_flatMap, List.mem_flatMap] at leaves
      rw [Node.mapSpansAll_eq_map, Node.mapSpansAll_eq_map] at members
      refine .list ?_ (spans _ _ moved)
      clear same moved
      induction children generalizing others with
      | nil =>
        rw [List.map_nil, eq_comm, List.map_eq_nil_iff] at members
        rw [members]
        exact .nil
      | cons child rest later =>
        cases others with
        | nil => cases members
        | cons other rest =>
          obtain ⟨head, tail⟩ := List.cons.inj members
          refine .cons (ih child List.mem_cons_self head ?_) (later ?_ rest tail ?_)
          · exact fun token occurs => leaves token ⟨child, List.mem_cons_self, occurs⟩
          · exact fun child member => ih child (List.mem_cons_of_mem _ member)
          · intro token inside
            obtain ⟨child, member, occurs⟩ := inside
            exact leaves token ⟨child, List.mem_cons_of_mem _ member, occurs⟩

/-- Values of allowed atoms are alike if moving their spans makes them equal. -/
theorem values_of_mapSpans_eq {v w : Value} (same : v.mapSpans f = w.mapSpans g)
    (value : ∀ token, v = .token token → c.value token)
    (leaves : ∀ token ∈ v.leaves, c.leaf token) : c.Values v w := by
  cases v with
  | token atom =>
    cases w with
    | token other =>
      cases same
      exact .token (value atom rfl)
    | _ => cases same
  | procedure callee =>
    cases w with
    | procedure other =>
      obtain ⟨parameters, body, span⟩ := callee
      obtain ⟨others, otherBody, otherSpan⟩ := other
      simp only [Value.mapSpans, Procedure.mapSpans, Value.procedure.injEq,
        Procedure.mk.injEq] at same
      obtain ⟨rfl, bodies, moved⟩ := same
      refine .procedure ⟨rfl, ?_, nodes_of_mapSpans_eq spans bodies ?_, spans _ _ moved⟩
      · exact fun token member => leaves token (List.mem_append_left _ member)
      · exact fun token occurs => leaves token (List.mem_append_right _ occurs)
    | _ => cases same
  | void =>
    cases w with
    | void => exact .void
    | _ => cases same

end Entering

section EnteringMoved

variable (spans : ∀ a, c.span a (f a))
include spans

/-- An expression of allowed atoms is alike to the one with moved spans. -/
theorem nodes_mapSpans {m : Node} (leaves : ∀ token ∈ m.leaves, c.leaf token) :
    c.Nodes m (m.mapSpans f) :=
  nodes_of_mapSpans_eq (g := id) (fun a b (moved : f a = b) => moved ▸ spans a)
    (m.mapSpans f).mapSpans_id.symm leaves

/-- A value of allowed atoms is alike to the one with its spans moved. -/
theorem values_mapSpans {v : Value} (value : ∀ token, v = .token token → c.value token)
    (leaves : ∀ token ∈ v.leaves, c.leaf token) : c.Values v (v.mapSpans f) :=
  values_of_mapSpans_eq (g := id) (fun a b (moved : f a = b) => moved ▸ spans a)
    (v.mapSpans f).mapSpans_id.symm value leaves

end EnteringMoved

section Leaving

variable (spans : ∀ a b, c.span a b → f a = g b)
include spans

/-- Moving their spans makes alike expressions equal. -/
theorem Nodes.mapSpans_eq {m n : Node} (same : c.Nodes m n) : m.mapSpans f = n.mapSpans g := by
  induction m using Node.induction generalizing n with
  | atom token span =>
    cases same with
    | atom _ moved => rw [Node.mapSpans, Node.mapSpans, spans _ _ moved]
  | list children span ih =>
    cases same with
    | @list _ others _ _ members moved =>
      rw [Node.mapSpans, Node.mapSpans, Node.mapSpansAll_eq_map, Node.mapSpansAll_eq_map,
        spans _ _ moved]
      congr 1
      clear moved
      induction members with
      | nil => rfl
      | cons head _ rest =>
        rw [List.map_cons, List.map_cons, ih _ List.mem_cons_self head,
          rest fun other inside => ih other (List.mem_cons_of_mem _ inside)]

theorem Procedures.mapSpans_eq {first second : Procedure} (same : c.Procedures first second) :
    first.mapSpans f = second.mapSpans g := by
  obtain ⟨parameters, body, span⟩ := second
  obtain ⟨rfl, -, bodies, moved⟩ := same
  rw [Procedure.mapSpans, Procedure.mapSpans, bodies.mapSpans_eq spans, spans _ _ moved]

/-- Moving their spans makes alike values equal. -/
theorem Values.mapSpans_eq {v w : Value} (same : c.Values v w) : v.mapSpans f = w.mapSpans g := by
  cases same with
  | procedure callees => rw [Value.mapSpans, Value.mapSpans, callees.mapSpans_eq spans]
  | _ => rfl

theorem Faults.mapSpans_eq {first second : DefinitionFault} (same : c.Faults first second) :
    first.mapSpans f = second.mapSpans g := by
  cases same with
  | listParameter nodes => simp only [DefinitionFault.mapSpans, nodes.mapSpans_eq spans]
  | unnamedParameter nodes => simp only [DefinitionFault.mapSpans, nodes.mapSpans_eq spans]
  | definitionTarget nodes => simp only [DefinitionFault.mapSpans, nodes.mapSpans_eq spans]
  | assignmentTarget nodes => simp only [DefinitionFault.mapSpans, nodes.mapSpans_eq spans]
  | _ => rfl

theorem Errors.mapSpans_eq {first second : EvaluationError} (same : c.Errors first second) :
    first.mapSpans f = second.mapSpans g := by
  cases same with
  | malformedDefinition faults moved =>
    simp only [EvaluationError.mapSpans, faults.mapSpans_eq spans, spans _ _ moved]
  | unbound _ moved => simp only [EvaluationError.mapSpans, spans _ _ moved]
  | malformedConditional moved => simp only [EvaluationError.mapSpans, spans _ _ moved]
  | argumentCount moved => simp only [EvaluationError.mapSpans, spans _ _ moved]
  | notCallable _ moved => simp only [EvaluationError.mapSpans, spans _ _ moved]
  | builtin _ moved => simp only [EvaluationError.mapSpans, spans _ _ moved]

end Leaving

section LeavingMoved

variable (spans : ∀ a b, c.span a b → b = f a)
include spans

/-- Of alike values, the second one is the first with its spans moved. -/
theorem Values.eq_mapSpans {v w : Value} (same : c.Values v w) : w = v.mapSpans f := by
  rw [same.mapSpans_eq (g := id) fun a b alike => (spans a b alike).symm, Value.mapSpans_id]

theorem Errors.eq_mapSpans {first second : EvaluationError} (same : c.Errors first second) :
    second = first.mapSpans f := by
  rw [same.mapSpans_eq (g := id) fun a b alike => (spans a b alike).symm,
    EvaluationError.mapSpans_id]

end LeavingMoved

section Self

/-! ### Where only equal spans are alike -/

/-- It does not matter whether all spans may occur. -/
theorem Values.eq_of_span_eq (equal : ∀ a b, c.span a b → a = b) {v w : Value}
    (same : c.Values v w) : w = v := by
  rw [same.eq_mapSpans (f := id) fun a b alike => (equal a b alike).symm, Value.mapSpans_id]

variable (spans : ∀ a b, c.span a b ↔ a = b)
include spans

/-- An expression of allowed atoms is alike to itself. -/
theorem nodes_self {m : Node} (leaves : ∀ token ∈ m.leaves, c.leaf token) : c.Nodes m m := by
  have moved := nodes_mapSpans (f := id) (fun a => (spans a a).mpr rfl) leaves
  rwa [Node.mapSpans_id] at moved

/-- A value of allowed atoms is alike to itself. -/
theorem values_self {v : Value} (value : ∀ token, v = .token token → c.value token)
    (leaves : ∀ token ∈ v.leaves, c.leaf token) : c.Values v v := by
  have moved := values_mapSpans (f := id) (fun a => (spans a a).mpr rfl) value leaves
  rwa [Value.mapSpans_id] at moved

/-- Where only equal spans are alike, alike values are equal. -/
theorem Values.eq {v w : Value} (same : c.Values v w) : w = v :=
  same.eq_of_span_eq fun a b => (spans a b).mp

theorem Results.eq {first second : Except EvaluationError Value}
    (same : c.Results c.Values first second) : second = first := by
  cases same with
  | ok values => rw [values.eq spans]
  | error errors =>
    rw [errors.eq_mapSpans (f := id) fun a b alike => ((spans a b).mp alike).symm,
      EvaluationError.mapSpans_id]

end Self

end Likeness

end SubstLisp
