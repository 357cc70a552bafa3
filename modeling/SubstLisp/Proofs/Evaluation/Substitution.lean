import SubstLisp.Evaluation.Evaluate

/-! # What a call writes into a body

A call writes its arguments into the body one parameter after the other, so that later parameters
are also replaced inside the arguments written before. All these passes come to one: every atom of
the body is treated by itself, by the first parameter it is like (`SubstLisp.call_fills_in`). Only
the expressions of the arguments are searched again, and where none of them holds a later parameter,
all parameters are replaced at once.
-/

namespace SubstLisp

namespace Node

/-- An expression stays as it is if all its atoms do. -/
theorem mapLeaves_eq_self {f : Token → Span → Node} {node : Node}
    (same : ∀ token ∈ node.leaves, ∀ span, f token span = .atom token span) :
    node.mapLeaves f = node := by
  induction node using Node.induction with
  | atom token span => exact same token (List.mem_singleton.mpr rfl) span
  | list children span ih =>
    simp only [leaves, leavesAll_eq_flatMap, List.mem_flatMap] at same
    rw [mapLeaves, mapLeavesAll_eq_map]
    congr 1
    refine List.map_congr_left (fun child member => ih child member ?_) |>.trans (List.map_id _)
    exact fun token occurs => same token ⟨child, member, occurs⟩

end Node

/-- Parameters and what is to be written in their place, the first one first. -/
abbrev Assignments := List (Token × Value)

namespace Assignments

/-- Write arguments into an expression, one parameter after the other. -/
def write (assignments : Assignments) (node : Node) : Node :=
  assignments.foldl (fun body (parameter, argument) => body.substitute parameter argument) node

/-- What becomes of an atom. The first parameter that it is like is replaced by the expression of
its argument, and the later ones are replaced in there. -/
def form : Assignments → Token → Span → Node
  | [], token, span => .atom token span
  | (parameter, argument) :: later, token, span =>
      if token.alike parameter then write later ((argument.node? span).getD (.atom token span))
      else form later token span

/-- What becomes of an atom if all parameters are replaced at once. Of several parameters that it is
like the first one counts. -/
def formAtOnce (assignments : Assignments) (token : Token) (span : Span) : Node :=
  match assignments.find? fun (parameter, _) => token.alike parameter with
  | some (_, argument) => (argument.node? span).getD (.atom token span)
  | none => .atom token span

/-- Writing one parameter after the other is writing something in the place of each atom. -/
theorem write_eq_mapLeaves (assignments : Assignments) (node : Node) :
    assignments.write node = node.mapLeaves assignments.form := by
  induction assignments generalizing node with
  | nil => exact (Node.mapLeaves_eq_self fun _ _ _ => rfl).symm
  | cons first later ih =>
    obtain ⟨parameter, argument⟩ := first
    change write later (node.substitute parameter argument) = _
    rw [ih, Node.substitute, Node.mapLeaves_mapLeaves]
    congr 1
    funext token span
    by_cases like : token.alike parameter
    · -- What has been written for an atom is the body of the later passes.
      simp only [like, ↓reduceIte, form]
      exact (ih _).symm
    · simp only [like, Bool.false_eq_true, ↓reduceIte, form, Node.mapLeaves]

/-- A token that is alike to no parameter stands for itself. -/
theorem form_of_unlike {assignments : Assignments} {token : Token}
    (unlike : ∀ assignment ∈ assignments, token.alike assignment.1 = false) (span : Span) :
    assignments.form token span = .atom token span := by
  induction assignments with
  | nil => rfl
  | cons first later ih =>
    obtain ⟨parameter, argument⟩ := first
    rw [List.forall_mem_cons] at unlike
    rw [form, if_neg (by simp [unlike.1]), ih unlike.2]

/-- The first parameter that an atom is like takes it. -/
theorem form_of_like {before later : Assignments} {token parameter : Token} {argument : Value}
    (unlike : ∀ assignment ∈ before, token.alike assignment.1 = false)
    (like : token.alike parameter) (span : Span) :
    form (before ++ (parameter, argument) :: later) token span =
      later.write ((argument.node? span).getD (.atom token span)) := by
  induction before with
  | nil => rw [List.nil_append, form, if_pos like]
  | cons first rest ih =>
    obtain ⟨earlier, other⟩ := first
    rw [List.forall_mem_cons] at unlike
    rw [List.cons_append, form, if_neg (by simp [unlike.1]), ih unlike.2]

/-- Nothing is written into an expression without parameters. -/
theorem write_eq_self {assignments : Assignments} {node : Node}
    (unlike : ∀ assignment ∈ assignments, ∀ token ∈ node.leaves,
      token.alike assignment.1 = false) : assignments.write node = node := by
  rw [write_eq_mapLeaves]
  refine Node.mapLeaves_eq_self fun token occurs span => form_of_unlike ?_ span
  exact fun assignment member => unlike assignment member token occurs

end Assignments

namespace Value

/-- No atom in the expression of a value is like a parameter. -/
def IsClearOf (parameter : Token) (argument : Value) : Prop :=
  ∀ span node, argument.node? span = some node →
    ∀ token ∈ node.leaves, token.alike parameter = false

/-- Every value but the missing one can be written into an expression. -/
theorem exists_node?_of_not_void {argument : Value} (notVoid : argument.isVoid = false)
    (span : Span) : ∃ node, argument.node? span = some node := by
  cases argument with
  | token atom => exact ⟨_, rfl⟩
  | procedure callee => exact ⟨_, rfl⟩
  | void => cases notVoid

end Value

/-- Where no argument holds a later parameter, all parameters may be replaced at once. -/
theorem Assignments.form_eq_formAtOnce {assignments : Assignments}
    (values : ∀ assignment ∈ assignments, assignment.2.isVoid = false)
    (clear : assignments.Pairwise fun earlier later => earlier.2.IsClearOf later.1) :
    assignments.form = assignments.formAtOnce := by
  funext token span
  induction assignments with
  | nil => rfl
  | cons first later ih =>
    obtain ⟨parameter, argument⟩ := first
    rw [List.forall_mem_cons] at values
    rw [List.pairwise_cons] at clear
    by_cases like : token.alike parameter
    · obtain ⟨node, found⟩ := Value.exists_node?_of_not_void values.1 span
      simp only [form, formAtOnce, List.find?_cons, like, ↓reduceIte, found, Option.getD_some]
      exact write_eq_self fun assignment member => clear.1 assignment member span node found
    · have others := ih values.2 clear.2
      simpa only [form, formAtOnce, List.find?_cons, like, Bool.false_eq_true, ↓reduceIte] using
        others

/-- How a call fills in the body of a procedure, where `form` is what becomes of its atoms. -/
structure FillsIn (procedure : Procedure) (arguments : List Value) (form : Token → Span → Node) :
    Prop where
  /-- Whoever finds these arguments evaluates the body with all its atoms replaced, those in nested
  parameter lists included. -/
  evaluates : ∀ (evaluator : Evaluator) operands span environment after,
    (evaluator.values operands).runIn environment = some (.ok arguments, after) →
    (evaluator.callProcedure procedure operands span).runIn environment =
      (evaluator (procedure.body.mapLeaves form)).runIn after
  unlike : ∀ token span, (∀ parameter ∈ procedure.parameters, token.alike parameter = false) →
    form token span = .atom token span
  /-- The first parameter that an atom is like takes it, whether or not a later one is equal. -/
  like : ∀ before parameter argument later token span,
    procedure.parameters.zip arguments = before ++ (parameter, argument) :: later →
    (∀ assignment ∈ before, token.alike assignment.1 = false) → token.alike parameter →
    ∃ expression, argument.node? span = some expression ∧
      form token span = Assignments.write later expression
  /-- If no argument holds a later parameter, all parameters are replaced at once. -/
  atOnce : (procedure.parameters.zip arguments).Pairwise
      (fun earlier later => earlier.2.IsClearOf later.1) →
    form = Assignments.formAtOnce (procedure.parameters.zip arguments)

/-- **A call treats every atom of a body by itself.** An atom that is like no parameter stays. Of
the others, each becomes the expression of the argument for the first parameter it is like, with the
later parameters written into it in order. -/
theorem call_fills_in (procedure : Procedure) {arguments : List Value}
    (count : arguments.length = procedure.parameters.length)
    (values : ∀ argument ∈ arguments, argument.isVoid = false) :
    FillsIn procedure arguments (Assignments.form (procedure.parameters.zip arguments)) where
  evaluates := by
    intro evaluator operands span environment after ran
    rw [← Assignments.write_eq_mapLeaves, Evaluator.callProcedure, Evaluation.runIn_bind, ran]
    simp only [count, ↓reduceIte]
    rfl
  unlike := by
    intro token span unlike
    refine Assignments.form_of_unlike (fun assignment member => ?_) span
    exact unlike _ (List.of_mem_zip member).1
  like := by
    intro before parameter argument later token span split unlike like
    have member : (parameter, argument) ∈ procedure.parameters.zip arguments := by
      rw [split]
      exact List.mem_append_right _ List.mem_cons_self
    have notVoid := values argument (List.of_mem_zip member).2
    obtain ⟨expression, found⟩ := argument.exists_node?_of_not_void notVoid span
    refine ⟨expression, found, ?_⟩
    rw [split, Assignments.form_of_like unlike like, found, Option.getD_some]
  atOnce := by
    intro clear
    refine Assignments.form_eq_formAtOnce (fun assignment member => ?_) clear
    exact values _ (List.of_mem_zip member).2

/-- The first of two equal parameters takes all their atoms, in the parameter list of an inner
procedure too, and the parameter between them is also replaced in its argument. -/
theorem call_fills_in_past_a_repeated_parameter :
    let x : Token := .identifier "x"
    let y : Token := .identifier "y"
    let constant : Procedure := {
      parameters := []
      body := .atom y ⟨11, 12⟩
      span := ⟨0, 13⟩ }
    let callee : Procedure := {
      parameters := [x, y, x]
      body := .list [.list [.atom x ⟨22, 23⟩] ⟨21, 24⟩, .atom y ⟨25, 26⟩] ⟨20, 27⟩
      span := ⟨14, 28⟩ }
    let three : Value := .token (.number (.integer 3))
    let truth : Value := .token (.boolean true)
    let arguments := [.procedure constant, three, truth]
    let filled : Procedure := { constant with body := .atom (.number (.integer 3)) ⟨11, 12⟩ }
    arguments.length = callee.parameters.length ∧
    (∀ argument ∈ arguments, argument.isVoid = false) ∧
    FillsIn callee arguments (Assignments.form (callee.parameters.zip arguments)) ∧
    callee.instantiate arguments =
      .list [.list [filled.node] ⟨21, 24⟩, .atom (.number (.integer 3)) ⟨25, 26⟩] ⟨20, 27⟩ := by
  intro x y constant callee three truth arguments filled
  have values : ∀ argument ∈ arguments, argument.isVoid = false := by
    simp [arguments, three, truth, Value.isVoid]
  exact ⟨rfl, values, call_fills_in callee rfl values, rfl⟩

end SubstLisp
