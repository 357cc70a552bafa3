import SubstLisp.Proofs.Evaluation.Programs
import SubstLisp.Proofs.Evaluation.Substitution

/-! # Renaming the parameters of a procedure

A procedure has no binders: its parameters are names to look for in its body, wherever they stand.
Still, other names would do as well (`SubstLisp.calls_alike_renamed`). New names must be told apart
as the old ones are and may not occur in the body already, and no argument may hold an old or a new
one, since it would be replaced in there as well.
-/

namespace SubstLisp

namespace Node

/-- Atoms are replaced alike if those that occur are. -/
theorem mapLeaves_congr {f g : Token → Span → Node} {node : Node}
    (same : ∀ token ∈ node.leaves, ∀ span, f token span = g token span) :
    node.mapLeaves f = node.mapLeaves g := by
  induction node using Node.induction with
  | atom token span => exact same token (List.mem_singleton.mpr rfl) span
  | list children span ih =>
    simp only [leaves, leavesAll_eq_flatMap, List.mem_flatMap] at same
    simp only [mapLeaves, mapLeavesAll_eq_map]
    congr 1
    refine List.map_congr_left fun child member => ih child member ?_
    exact fun token occurs => same token ⟨child, member, occurs⟩

end Node

/-- The same token, with another name if it is one. -/
def Token.rename (newName : String → String) : Token → Token
  | .identifier name => .identifier (newName name)
  | other => other

namespace Procedure

section Renaming

variable (newName : String → String) (procedure : Procedure)

/-- What an atom of the body becomes: those that are like a parameter are renamed. -/
def renameLeaf (token : Token) : Token :=
  if procedure.parameters.any token.alike then token.rename newName else token

/-- The procedure with other names for its parameters, in the parameter lists inside its body
too. -/
def rename : Procedure where
  parameters := procedure.parameters.map (Token.rename newName)
  body := procedure.body.mapLeaves fun token span =>
    .atom (procedure.renameLeaf newName token) span
  span := procedure.span

/-- Names that can stand for the parameters of a procedure, all of which are names. -/
structure Renames : Prop where
  named : ∀ parameter ∈ procedure.parameters, ∃ name, parameter = .identifier name
  injective : ∀ name other, .identifier name ∈ procedure.parameters →
    .identifier other ∈ procedure.parameters → newName name = newName other → name = other
  /-- New names do not occur in the body. They may be those of parameters that do not either. -/
  fresh : ∀ name, .identifier name ∈ procedure.parameters →
    .identifier (newName name) ∉ procedure.body.leaves

/-- No argument holds a parameter, be it by its old or its new name. -/
def AbsentFrom (arguments : List Value) : Prop :=
  ∀ argument ∈ arguments, ∀ parameter,
    parameter ∈ procedure.parameters ∨ parameter ∈ (procedure.rename newName).parameters →
    argument.IsClearOf parameter

end Renaming

variable {newName : String → String} {procedure : Procedure}

/-- An atom of the body and its new form are like the same parameters. -/
theorem Renames.alike_rename (renames : procedure.Renames newName) {token parameter : Token}
    (occurs : token ∈ procedure.body.leaves) (member : parameter ∈ procedure.parameters) :
    (procedure.renameLeaf newName token).alike (parameter.rename newName) =
      token.alike parameter := by
  obtain ⟨name, rfl⟩ := renames.named parameter member
  by_cases some : procedure.parameters.any token.alike
  · obtain ⟨other, otherMember, like⟩ := List.any_eq_true.mp some
    obtain ⟨otherName, rfl⟩ := renames.named other otherMember
    cases token with
    | identifier own =>
      obtain rfl : own = otherName := of_decide_eq_true like
      simp only [renameLeaf, some, ↓reduceIte, Token.rename, Token.alike, decide_eq_decide]
      exact ⟨renames.injective own name otherMember member, congrArg newName⟩
    | _ => cases like
  · -- A new name for the parameter does not occur in the body, so the atom is like neither.
    simp only [renameLeaf, some, Bool.false_eq_true, ↓reduceIte, Token.rename]
    have unlike : token.alike (.identifier name) = false := by
      rw [Bool.eq_false_iff]
      exact fun like => some (List.any_eq_true.mpr ⟨_, member, like⟩)
    rw [unlike]
    cases token with
    | identifier own =>
      refine decide_eq_false ?_
      rintro rfl
      exact renames.fresh name member occurs
    | _ => rfl

/-- An atom that no assignment is for keeps its name. -/
theorem renameLeaf_of_unlike {arguments : List Value} {token : Token}
    (count : arguments.length = procedure.parameters.length)
    (unlike : ∀ assignment ∈ procedure.parameters.zip arguments,
      token.alike assignment.1 = false) : procedure.renameLeaf newName token = token := by
  have parameters : (procedure.parameters.zip arguments).map Prod.fst = procedure.parameters :=
    List.map_fst_zip (Nat.le_of_eq count.symm)
  have none : procedure.parameters.any token.alike = false := by
    rw [← parameters, List.any_map, List.any_eq_false]
    exact fun assignment member => Bool.eq_false_iff.mp (unlike assignment member)
  simp only [renameLeaf, none, Bool.false_eq_true, ↓reduceIte]

section Arguments

variable {arguments : List Value} (values : ∀ argument ∈ arguments, argument.isVoid = false)
include values

/-- Arguments without parameters are written into a body all at once. -/
theorem instantiate_eq_mapLeaves
    (clear : ∀ argument ∈ arguments, ∀ parameter ∈ procedure.parameters,
      argument.IsClearOf parameter) :
    procedure.instantiate arguments =
      procedure.body.mapLeaves
        (Assignments.formAtOnce (procedure.parameters.zip arguments)) := by
  have assigned : ∀ assignment ∈ procedure.parameters.zip arguments,
      assignment.2.isVoid = false :=
    fun assignment member => values _ (List.of_mem_zip member).2
  have apart : (procedure.parameters.zip arguments).Pairwise
      fun earlier later => earlier.2.IsClearOf later.1 := by
    refine List.pairwise_of_forall_mem_list fun earlier first later second => ?_
    exact clear _ (List.of_mem_zip first).2 _ (List.of_mem_zip second).1
  rw [← Assignments.form_eq_formAtOnce assigned apart, ← Assignments.write_eq_mapLeaves]
  rfl

/-- With other parameters, the same is written for each atom of the body. -/
theorem Renames.formAtOnce_rename (renames : procedure.Renames newName)
    (count : arguments.length = procedure.parameters.length) {token : Token}
    (occurs : token ∈ procedure.body.leaves) (span : Span) :
    Assignments.formAtOnce ((procedure.rename newName).parameters.zip arguments)
        (procedure.renameLeaf newName token) span =
      Assignments.formAtOnce (procedure.parameters.zip arguments) token span := by
  have alike : ∀ assignment ∈ procedure.parameters.zip arguments,
      (procedure.renameLeaf newName token).alike (assignment.1.rename newName) =
        token.alike assignment.1 :=
    fun assignment member => renames.alike_rename occurs (List.of_mem_zip member).1
  have found : (procedure.parameters.zip arguments).find? (fun assignment =>
        (procedure.renameLeaf newName token).alike (assignment.1.rename newName)) =
      (procedure.parameters.zip arguments).find? (fun assignment => token.alike assignment.1) := by
    rw [← List.head?_filter, ← List.head?_filter, List.filter_congr alike]
  simp only [Assignments.formAtOnce, rename, List.zip_map_left, List.find?_map,
    Function.comp_def, Prod.map_fst, found]
  cases first : (procedure.parameters.zip arguments).find? fun assignment =>
      token.alike assignment.1 with
  | some assignment =>
    obtain ⟨parameter, argument⟩ := assignment
    have member : argument ∈ arguments := (List.of_mem_zip (List.mem_of_find?_eq_some first)).2
    obtain ⟨expression, form⟩ := argument.exists_node?_of_not_void (values argument member) span
    simp only [Option.map_some, Prod.map_apply, id_eq, form, Option.getD_some]
  | none =>
    have unlike : ∀ assignment ∈ procedure.parameters.zip arguments,
        token.alike assignment.1 = false := by
      simpa using List.find?_eq_none.mp first
    rw [Option.map_none, renameLeaf_of_unlike count unlike]

/-- The body with the arguments written into it does not depend on the names of the parameters. -/
theorem Renames.instantiate_rename (renames : procedure.Renames newName)
    (count : arguments.length = procedure.parameters.length)
    (absent : procedure.AbsentFrom newName arguments) :
    (procedure.rename newName).instantiate arguments = procedure.instantiate arguments := by
  rw [instantiate_eq_mapLeaves values fun argument member parameter old =>
      absent argument member parameter (.inl old),
    instantiate_eq_mapLeaves values fun argument member parameter new =>
      absent argument member parameter (.inr new)]
  rw [rename, Node.mapLeaves_mapLeaves]
  exact Node.mapLeaves_congr fun token occurs span =>
    renames.formAtOnce_rename values count occurs span

end Arguments

end Procedure

/-- What a call comes to once its operands have values. -/
theorem runIn_callProcedure {evaluator : Evaluator} {operands : List Node}
    {environment after : Environment} {arguments : List Value}
    (ran : (evaluator.values operands).runIn environment = some (.ok arguments, after))
    (procedure : Procedure) (span : Span) :
    (evaluator.callProcedure procedure operands span).runIn environment =
      if arguments.length = procedure.parameters.length then
        (evaluator (procedure.instantiate arguments)).runIn after
      else
        some (.error (.argumentCount procedure.parameters.length arguments.length span),
          after) := by
  rw [Evaluator.callProcedure, Evaluation.runIn_bind, ran]
  simp only
  split <;> rfl

/-- Calls of two procedures with the same operands in the same environment go the same way. -/
structure CallsAlike (evaluator : Evaluator) (operands : List Node) (span : Span)
    (environment : Environment) (callee other : Procedure) : Prop where
  /-- With an argument for each parameter, both evaluate the same expression in the same
  environment. -/
  evaluate : ∀ arguments after,
    (evaluator.values operands).runIn environment = some (.ok arguments, after) →
    arguments.length = callee.parameters.length →
    ∃ body, callee.instantiate arguments = body ∧ other.instantiate arguments = body ∧
      (evaluator.callProcedure callee operands span).runIn environment =
        (evaluator body).runIn after ∧
      (evaluator.callProcedure other operands span).runIn environment = (evaluator body).runIn after
  /-- With another number of arguments, both fail in the same way. -/
  refuse : ∀ arguments after,
    (evaluator.values operands).runIn environment = some (.ok arguments, after) →
    arguments.length ≠ callee.parameters.length →
    ∃ cause, cause = .argumentCount callee.parameters.length arguments.length span ∧
      (evaluator.callProcedure callee operands span).runIn environment =
        some (.error cause, after) ∧
      (evaluator.callProcedure other operands span).runIn environment = some (.error cause, after)
  /-- They come to the same, even if the operands have no values. -/
  same : (evaluator.callProcedure callee operands span).runIn environment =
    (evaluator.callProcedure other operands span).runIn environment

/-- **The names of parameters do not matter, unless they are captured.** A procedure and the same
one with other names for its parameters are called alike, if no argument holds one of the names. -/
theorem calls_alike_renamed {newName : String → String} {procedure : Procedure}
    (renames : procedure.Renames newName) (evaluator : Evaluator) (operands : List Node)
    (span : Span) (environment : Environment)
    (absent : ∀ arguments after,
      (evaluator.values operands).runIn environment = some (.ok arguments, after) →
      procedure.AbsentFrom newName arguments) :
    CallsAlike evaluator operands span environment procedure (procedure.rename newName) := by
  have parameters : (procedure.rename newName).parameters.length = procedure.parameters.length :=
    List.length_map _
  have evaluate : ∀ arguments after,
      (evaluator.values operands).runIn environment = some (.ok arguments, after) →
      arguments.length = procedure.parameters.length →
      (procedure.rename newName).instantiate arguments = procedure.instantiate arguments :=
    fun arguments after ran count => renames.instantiate_rename
      (Evaluator.not_void_of_values ran) count (absent arguments after ran)
  refine ⟨fun arguments after ran count => ?_, fun arguments after ran count => ?_, ?_⟩
  · refine ⟨_, rfl, evaluate arguments after ran count, ?_, ?_⟩
    · rw [runIn_callProcedure ran, if_pos count]
    · rw [runIn_callProcedure ran, parameters, if_pos count, evaluate arguments after ran count]
  · refine ⟨_, rfl, ?_, ?_⟩
    · rw [runIn_callProcedure ran, if_neg count]
    · rw [runIn_callProcedure ran, parameters, if_neg count]
  · cases ran : (evaluator.values operands).runIn environment with
    | none =>
      simp only [Evaluator.callProcedure, Evaluation.runIn_bind, ran]
    | some outcome =>
      obtain ⟨cause | arguments, after⟩ := outcome
      · simp only [Evaluator.callProcedure, Evaluation.runIn_bind, ran]
      · rw [runIn_callProcedure ran, runIn_callProcedure ran, parameters]
        split
        case isTrue count => rw [evaluate arguments after ran count]
        case isFalse => rfl

/-- A parameter that occurs twice, and inside the parameter list of an inner procedure, called with
a procedure among its arguments. -/
theorem calls_alike_renamed_in_a_parameter_list :
    let three : Value := .token (.number (.integer 3))
    let same : Procedure := {
      parameters := [.identifier "w"], body := .atom (.identifier "w") ⟨12, 13⟩, span := ⟨0, 14⟩ }
    let inner : Node := .list [.atom (.keyword (.special .abstraction)) ⟨1, 7⟩,
      .list [.atom (.identifier "x") ⟨9, 10⟩] ⟨8, 11⟩, .atom (.identifier "y") ⟨12, 13⟩] ⟨0, 14⟩
    let callee : Procedure := {
      parameters := [.identifier "x", .identifier "y", .identifier "x"], body := inner,
      span := ⟨0, 30⟩ }
    let newName := fun name => if name = "x" then "a" else "b"
    let operands : List Node := [.atom (.number (.integer 3)) ⟨32, 33⟩,
      .atom (.identifier "same") ⟨34, 38⟩, .atom (.boolean true) ⟨39, 41⟩]
    let environment := Environment.standard.define "same" (.procedure same)
    let filled : Node := .list [.atom (.keyword (.special .abstraction)) ⟨1, 7⟩,
      .list [.atom (.number (.integer 3)) ⟨9, 10⟩] ⟨8, 11⟩, same.node] ⟨0, 14⟩
    callee.Renames newName ∧
    (∀ arguments after,
      ((evaluate 1).values operands).runIn environment = some (.ok arguments, after) →
      callee.AbsentFrom newName arguments) ∧
    CallsAlike (evaluate 1) operands ⟨31, 42⟩ environment callee (callee.rename newName) ∧
    (callee.rename newName).parameters = [.identifier "a", .identifier "b", .identifier "a"] ∧
    (callee.rename newName).instantiate [three, .procedure same, .token (.boolean true)] =
      filled := by
  intro three same inner callee newName operands environment filled
  have renamed : (callee.rename newName).parameters =
      [.identifier "a", .identifier "b", .identifier "a"] := rfl
  have names : ∀ name, .identifier name ∈ callee.parameters → name = "x" ∨ name = "y" := by
    simp +contextual [callee]
  have renames : callee.Renames newName := by
    refine ⟨by simp [callee], fun name other member otherMember => ?_, fun name member => ?_⟩
    · rcases names name member with rfl | rfl <;> rcases names other otherMember with rfl | rfl <;>
        decide
    · rcases names name member with rfl | rfl <;> decide
  have absent : ∀ arguments after,
      ((evaluate 1).values operands).runIn environment = some (.ok arguments, after) →
      callee.AbsentFrom newName arguments := by
    intro arguments after ran
    cases ran
    have clear : ∀ argument ∈ [three, .procedure same, .token (.boolean true)],
        ∀ name ∈ ["x", "y", "a", "b"], argument.IsClearOf (.identifier name) := by
      simp [three, same, Value.IsClearOf, Value.node?, Procedure.node, Node.leaves, Node.leavesAll,
        Token.alike]
    intro argument member parameter either
    have named : ∃ name ∈ ["x", "y", "a", "b"], parameter = .identifier name := by
      simp only [renamed, callee, List.mem_cons, List.not_mem_nil, or_false] at either
      rcases either with (rfl | rfl | rfl) | rfl | rfl | rfl <;> exact ⟨_, by decide, rfl⟩
    obtain ⟨name, known, rfl⟩ := named
    exact clear argument member name known
  exact ⟨renames, absent, calls_alike_renamed renames _ _ _ _ absent, renamed, rfl⟩

end SubstLisp
