import Mathlib.Data.List.Forall2
import SubstLisp.Evaluation.Evaluate

/-! # Alike expressions, values and failures

Two evaluations side by side are compared by a likeness. It says which spans may stand in each
other's place, which atoms may occur in an expression and which of them may be values, and how
builtin procedures may fail. Everything else that an evaluation handles is alike part by part.

A property of a single evaluation is the case in which only equal spans are alike.
-/

namespace SubstLisp

/-- In which respects two evaluations may differ, and what neither of them may meet. -/
structure Likeness where
  span : Span → Span → Prop
  /-- The atoms that may occur in an expression. -/
  leaf : Token → Prop
  /-- The atoms that may be values. -/
  value : Token → Prop
  /-- The builtin procedures that may be missing. -/
  missing : Builtin → Prop
  /-- The causes for which a builtin procedure may have no result. -/
  cause : BuiltinError → Prop

namespace Likeness

variable (c : Likeness)

/-- Expressions of one shape, with the same allowed atoms and alike spans. -/
inductive Nodes : Node → Node → Prop where
  | atom {token : Token} {left right : Span} (allowed : c.leaf token)
      (spans : c.span left right) : Nodes (.atom token left) (.atom token right)
  | list {first second : List Node} {left right : Span}
      (children : List.Forall₂ Nodes first second) (spans : c.span left right) :
      Nodes (.list first left) (.list second right)

structure Procedures (first second : Procedure) : Prop where
  parameters : first.parameters = second.parameters
  leaves : ∀ token ∈ first.parameters, c.leaf token
  body : c.Nodes first.body second.body
  span : c.span first.span second.span

inductive Values : Value → Value → Prop where
  | token {atom : Token} (allowed : c.value atom) : Values (.token atom) (.token atom)
  | procedure {first second : Procedure} (same : c.Procedures first second) :
      Values (.procedure first) (.procedure second)
  | void : Values .void .void

inductive Faults : DefinitionFault → DefinitionFault → Prop where
  | abstractionShape : Faults .abstractionShape .abstractionShape
  | listParameter {first second : Node} (same : c.Nodes first second) :
      Faults (.listParameter first) (.listParameter second)
  | unnamedParameter {first second : Node} (same : c.Nodes first second) :
      Faults (.unnamedParameter first) (.unnamedParameter second)
  | definitionShape : Faults .definitionShape .definitionShape
  | unnamedProcedure : Faults .unnamedProcedure .unnamedProcedure
  | procedureWithoutBody : Faults .procedureWithoutBody .procedureWithoutBody
  | definitionTarget {first second : Node} (same : c.Nodes first second) :
      Faults (.definitionTarget first) (.definitionTarget second)
  | assignmentShape : Faults .assignmentShape .assignmentShape
  | assignmentTarget {first second : Node} (same : c.Nodes first second) :
      Faults (.assignmentTarget first) (.assignmentTarget second)
  | noValue : Faults .noValue .noValue

inductive Errors : EvaluationError → EvaluationError → Prop where
  | unbound {name : String} {left right : Span} (allowed : c.leaf (.identifier name))
      (spans : c.span left right) : Errors (.unbound name left) (.unbound name right)
  | malformedDefinition {first second : DefinitionFault} {left right : Span}
      (same : c.Faults first second) (spans : c.span left right) :
      Errors (.malformedDefinition first left) (.malformedDefinition second right)
  | malformedConditional {left right : Span} (spans : c.span left right) :
      Errors (.malformedConditional left) (.malformedConditional right)
  | argumentCount {expected found : Nat} {left right : Span} (spans : c.span left right) :
      Errors (.argumentCount expected found left) (.argumentCount expected found right)
  | notCallable {operator : Uncallable} {left right : Span}
      (missing : ∀ builtin, operator = .missing builtin → c.missing builtin)
      (spans : c.span left right) :
      Errors (.notCallable operator left) (.notCallable operator right)
  | builtin {procedure : Builtin} {cause : BuiltinError} {left right : Span}
      (allowed : c.cause cause) (spans : c.span left right) :
      Errors (.builtin procedure cause left) (.builtin procedure cause right)

/-- Results of two computations that end the same way. -/
inductive Results {α β : Type} (related : α → β → Prop) :
    Except EvaluationError α → Except EvaluationError β → Prop where
  | ok {first : α} {second : β} (same : related first second) :
      Results related (.ok first) (.ok second)
  | error {first second : EvaluationError} (same : c.Errors first second) :
      Results related (.error first) (.error second)

/-- What atoms and builtin procedures have to satisfy for two evaluations to stay alike. -/
structure Lawful : Prop where
  leaf_of_value : ∀ {token}, c.value token → c.leaf token
  /-- Every atom but an identifier is a value. -/
  value_of_leaf : ∀ {token}, c.leaf token → (∀ name, token ≠ .identifier name) → c.value token
  /-- Bodies of several expressions, and procedures written as arguments, bring keywords along. -/
  sequence : c.leaf (.keyword (.special .sequence))
  abstraction : c.leaf (.keyword (.special .abstraction))
  result : ∀ {builtin arguments token}, c.leaf (.keyword (.builtin builtin)) →
    (∀ atom, .token atom ∈ arguments → c.value atom) →
    Builtin.apply builtin arguments = .ok token → c.value token
  failure : ∀ {builtin arguments cause}, c.leaf (.keyword (.builtin builtin)) →
    (∀ atom, .token atom ∈ arguments → c.value atom) →
    Builtin.apply builtin arguments = .error cause → c.cause cause

variable {c}

/-- Alike expressions have alike spans. -/
theorem Nodes.span {first second : Node} (same : c.Nodes first second) :
    c.span first.span second.span := by
  cases same with
  | atom _ spans => exact spans
  | list _ spans => exact spans

/-- Of alike values, both are missing or neither is. -/
theorem Values.isVoid_eq {v w : Value} (same : c.Values v w) : v.isVoid = w.isVoid := by
  cases same <;> rfl

/-- Alike procedures have alike expressions. -/
theorem Procedures.node (lawful : c.Lawful) {first second : Procedure}
    (same : c.Procedures first second) : c.Nodes first.node second.node := by
  have parameters : List.Forall₂ c.Nodes (first.parameters.map (.atom · first.span))
      (second.parameters.map (.atom · second.span)) := by
    rw [← same.parameters, List.forall₂_map_left_iff, List.forall₂_map_right_iff,
      List.forall₂_same]
    exact fun token member => .atom (same.leaves token member) same.span
  exact .list (.cons (.atom lawful.abstraction same.span)
    (.cons (.list parameters same.span) (.cons same.body .nil))) same.span

/-- Alike arguments are written into alike expressions. -/
theorem Nodes.substitute (lawful : c.Lawful) {v w : Value} (parameter : Token)
    (arguments : c.Values v w) {first second : Node} (same : c.Nodes first second) :
    c.Nodes (first.substitute parameter v) (second.substitute parameter w) := by
  induction first using Node.induction generalizing second with
  | atom token left =>
    cases same with
    | @atom _ _ right allowed spans =>
      simp only [Node.substitute, Node.mapLeaves]
      by_cases alike : token.alike parameter
      · simp only [alike, ↓reduceIte]
        cases arguments with
        | token allowedValue => exact .atom (lawful.leaf_of_value allowedValue) spans
        | procedure callees => exact callees.node lawful
        | void => exact .atom allowed spans
      · simp only [alike, Bool.false_eq_true, ↓reduceIte]
        exact .atom allowed spans
  | list children left ih =>
    cases same with
    | @list _ others _ right members spans =>
      simp only [Node.substitute, Node.mapLeaves, Node.mapLeavesAll_eq_map] at ih ⊢
      refine .list ?_ spans
      clear spans
      induction members with
      | nil => exact .nil
      | cons head tail rest =>
        refine .cons (ih _ List.mem_cons_self head) ?_
        exact rest fun child member => ih child (List.mem_cons_of_mem _ member)

/-- The bodies of alike procedures, with alike arguments written into them. -/
theorem Procedures.instantiate (lawful : c.Lawful) {first second : Procedure}
    (same : c.Procedures first second) {left right : List Value}
    (arguments : List.Forall₂ c.Values left right) :
    c.Nodes (first.instantiate left) (second.instantiate right) := by
  obtain ⟨parameters, body, span⟩ := first
  obtain ⟨_, others, otherSpan⟩ := second
  obtain ⟨rfl, leaves, bodies, -⟩ := same
  simp only [Procedure.instantiate] at leaves bodies ⊢
  clear leaves
  induction parameters generalizing left right body others with
  | nil => exact bodies
  | cons parameter rest ih =>
    cases arguments with
    | nil => exact bodies
    | cons head tail => exact ih tail _ _ (bodies.substitute lawful parameter head)

/-- Builtin procedures see numbers and names of kinds only, and these are the same. -/
theorem numbersFrom_eq (position : Nat) {left right : List Value}
    (arguments : List.Forall₂ c.Values left right) :
    numbersFrom position left = numbersFrom position right := by
  induction arguments generalizing position with
  | nil => rfl
  | cons head tail ih =>
    have numbers := ih (position + 1)
    cases head <;> simp only [numbersFrom, Value.number?, Value.typeName, numbers]

/-- A builtin does not tell alike arguments apart: it looks at nothing but numbers and
type names. -/
theorem apply_eq (builtin : Builtin) {left right : List Value}
    (arguments : List.Forall₂ c.Values left right) : builtin.apply left = builtin.apply right := by
  simp only [Builtin.apply, Operation.apply, numberArguments, arguments.length_eq,
    numbersFrom_eq 1 arguments]

/-- The tokens among alike values are allowed as values. -/
theorem allowed_of_mem {left right : List Value} (same : List.Forall₂ c.Values left right)
    {atom : Token} (member : .token atom ∈ left) : c.value atom := by
  induction same with
  | nil => cases member
  | cons head _ ih =>
    rcases List.mem_cons.mp member with rfl | later
    · cases head with
      | token allowed => exact allowed
    · exact ih later

/-! ### Procedures read from expressions -/

variable {α β γ δ : Type}

/-- The same allowed parameters. -/
def Parameters (c : Likeness) (first second : List Token) : Prop :=
  first = second ∧ ∀ token ∈ first, c.leaf token

/-- Alike procedures with one allowed name. -/
def NamedProcedures (c : Likeness) (first second : String × Procedure) : Prop :=
  first.1 = second.1 ∧ c.leaf (.identifier first.1) ∧ c.Procedures first.2 second.2

/-- Computations that go on alike after alike results have alike results. -/
theorem Results.bind {related : α → β → Prop} {next : γ → δ → Prop}
    {first : Except EvaluationError α} {second : Except EvaluationError β}
    {firstNext : α → Except EvaluationError γ} {secondNext : β → Except EvaluationError δ}
    (head : c.Results related first second)
    (tail : ∀ a b, related a b → c.Results next (firstNext a) (secondNext b)) :
    c.Results next (first >>= firstNext) (second >>= secondNext) := by
  cases head with
  | ok same => exact tail _ _ same
  | error same => exact .error same

/-- Alike results stay alike under alike functions. -/
theorem Results.map {related : α → β → Prop} {next : γ → δ → Prop}
    {first : Except EvaluationError α} {second : Except EvaluationError β} {f : α → γ} {g : β → δ}
    (head : c.Results related first second) (tail : ∀ a b, related a b → next (f a) (g b)) :
    c.Results next (first.map f) (second.map g) := by
  cases head with
  | ok same => exact .ok (tail _ _ same)
  | error same => exact .error same

/-- One more allowed parameter keeps parameter lists alike. -/
theorem Parameters.cons {token : Token} (allowed : c.leaf token) {first second : List Token}
    (same : c.Parameters first second) : c.Parameters (token :: first) (token :: second) :=
  ⟨congrArg _ same.1, List.forall_mem_cons.mpr ⟨allowed, same.2⟩⟩

/-- Alike parameter lists are accepted or refused alike. -/
theorem parameterTokens {left right : List Node} (nodes : List.Forall₂ c.Nodes left right) :
    c.Results c.Parameters (parameterTokens left) (parameterTokens right) := by
  induction nodes with
  | nil => exact .ok ⟨rfl, by simp⟩
  | cons head _ ih =>
    cases head with
    | atom allowed _ => exact ih.map fun _ _ same => same.cons allowed
    | list children spans =>
      exact .error (.malformedDefinition (.listParameter (.list children spans)) spans)

/-- Alike parameter lists name the same parameters, or are refused alike. -/
theorem parameterNames {left right : List Node} (nodes : List.Forall₂ c.Nodes left right) :
    c.Results c.Parameters (parameterNames left) (parameterNames right) := by
  induction nodes with
  | nil => exact .ok ⟨rfl, by simp⟩
  | @cons m n left right head _ ih =>
    have unnamed : c.Results c.Parameters
        (.error (.malformedDefinition (.unnamedParameter m) m.span))
        (.error (.malformedDefinition (.unnamedParameter n) n.span)) :=
      .error (.malformedDefinition (.unnamedParameter head) head.span)
    cases head with
    | list children spans => exact unnamed
    | @atom token _ _ allowed _ =>
      cases token with
      | identifier name => exact ih.map fun _ _ same => same.cons allowed
      | _ => exact unnamed

section Forms

variable (lawful : c.Lawful) {a b : Span} (spans : c.span a b)
include lawful spans

/-- Alike expressions make alike bodies, also where a sequence is put around them. -/
theorem bodyOf {left right : List Node} (expressions : List.Forall₂ c.Nodes left right) :
    c.Nodes (bodyOf left a) (bodyOf right b) := by
  have whole : ∀ {left right : List Node}, List.Forall₂ c.Nodes left right →
      c.Nodes (.list (.atom (.keyword (.special .sequence)) a :: left) a)
        (.list (.atom (.keyword (.special .sequence)) b :: right) b) :=
    fun members => .list (.cons (.atom lawful.sequence spans) members) spans
  match left, right, expressions with
  | [], [], .nil => exact whole .nil
  | [_], [_], .cons single .nil => exact single
  | _ :: _ :: _, _ :: _ :: _, .cons head tail => exact whole (.cons head tail)

/-- Alike operands make alike procedures, or are refused alike. -/
theorem abstraction {left right : List Node} (operands : List.Forall₂ c.Nodes left right) :
    c.Results c.Procedures (abstraction left a) (abstraction right b) := by
  have malformed : c.Results c.Procedures (.error (.malformedDefinition .abstractionShape a))
      (.error (.malformedDefinition .abstractionShape b)) :=
    .error (.malformedDefinition .abstractionShape spans)
  cases operands with
  | nil => exact malformed
  | cons signature body =>
    cases signature with
    | atom _ _ => exact malformed
    | list parameters _ =>
      cases body with
      | nil => exact malformed
      | cons head tail =>
        refine (parameterTokens parameters).bind fun _ _ same => .ok ?_
        exact ⟨same.1, same.2, bodyOf lawful spans (.cons head tail), spans⟩

/-- Alike signatures and bodies make alike procedures of one name, or are refused alike. -/
theorem namedProcedure {signature otherSignature body otherBody : List Node}
    (signatures : List.Forall₂ c.Nodes signature otherSignature)
    (bodies : List.Forall₂ c.Nodes body otherBody) {start stop : Span}
    (signatureSpans : c.span start stop) :
    c.Results c.NamedProcedures (namedProcedure signature start body a)
      (namedProcedure otherSignature stop otherBody b) := by
  have unnamed : c.Results c.NamedProcedures
      (.error (.malformedDefinition .unnamedProcedure start))
      (.error (.malformedDefinition .unnamedProcedure stop)) :=
    .error (.malformedDefinition .unnamedProcedure signatureSpans)
  cases signatures with
  | nil => exact unnamed
  | cons head parameters =>
    cases head with
    | list _ _ => exact unnamed
    | @atom token _ _ allowed _ =>
      cases token with
      | identifier name =>
        cases bodies with
        | nil => exact .error (.malformedDefinition .procedureWithoutBody spans)
        | cons first rest =>
          refine (parameterNames parameters).bind fun _ _ same => .ok ⟨rfl, allowed, ?_⟩
          exact ⟨same.1, same.2, bodyOf lawful spans (.cons first rest), spans⟩
      | _ => exact unnamed

end Forms

end Likeness

end SubstLisp
