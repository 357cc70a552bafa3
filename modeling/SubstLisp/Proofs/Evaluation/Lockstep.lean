import SubstLisp.Proofs.Evaluation.Likeness

/-! # Evaluations in lockstep

A simulation is a likeness together with a relation between environments. If builtin procedures,
look-ups and bindings respect it (`SubstLisp.Simulation.Lawful`), whole evaluations do: alike
expressions evaluated in related environments with the same depth both run out of depth, or both
have alike values, or both end with alike errors, and the environments they leave are related again
(`SubstLisp.Simulation.Lawful.evaluate`).
-/

namespace SubstLisp

/-- A likeness, and which environments belong together. -/
structure Simulation extends Likeness where
  environment : Environment → Environment → Prop

namespace Simulation

/-- What environments have to do, in addition, for two evaluations to stay together. -/
structure Lawful (c : Simulation) : Prop extends c.toLikeness.Lawful where
  lookup : ∀ {e f name}, c.environment e f → c.leaf (.identifier name) →
    Option.Rel c.Values (e.lookup? name) (f.lookup? name)
  define : ∀ {e f name v w}, c.environment e f → c.leaf (.keyword (.special .definition)) →
    c.leaf (.identifier name) → c.Values v w → v.isVoid = false →
    c.environment (e.define name v) (f.define name w)
  assign : ∀ {e f name v w}, c.environment e f → c.leaf (.keyword (.special .assignment)) →
    c.leaf (.identifier name) → (e.lookup? name).isSome → c.Values v w → v.isVoid = false →
    c.environment (e.define name v) (f.define name w)
  provides : ∀ {e f builtin}, c.environment e f → c.leaf (.keyword (.builtin builtin)) →
    e.provides builtin = f.provides builtin
  missing_of_not_provides : ∀ {e f builtin}, c.environment e f →
    c.leaf (.keyword (.builtin builtin)) → e.provides builtin = false → c.missing builtin

variable {c : Simulation} {α β γ δ : Type}

/-- Computations that stay together when they start in related environments. -/
def Computations (c : Simulation) (related : α → β → Prop) (first : Evaluation α)
    (second : Evaluation β) : Prop :=
  ∀ e f, c.environment e f →
    Option.Rel (fun left right => c.Results related left.1 right.1 ∧ c.environment left.2 right.2)
      (first.runIn e) (second.runIn f)

namespace Computations

variable {related : α → β → Prop} {next : γ → δ → Prop}

/-- Where the first of two computations has an outcome, the second has a related one. -/
theorem outcome {first : Evaluation α} {second : Evaluation β}
    (together : c.Computations related first second) {e f : Environment}
    (environments : c.environment e f) {left : Outcome α} (ran : first.runIn e = some left) :
    ∃ right, second.runIn f = some right ∧ c.Results related left.1 right.1 ∧
      c.environment left.2 right.2 := by
  have same := together e f environments
  rw [ran] at same
  generalize second.runIn f = other at same ⊢
  cases same with
  | some related => exact ⟨_, rfl, related⟩

/-- Computations that are done with alike results are alike. -/
theorem pure {a : α} {b : β} (same : related a b) : c.Computations related (pure a) (pure b) :=
  fun _ _ environments => .some ⟨.ok same, environments⟩

theorem throw {first second : EvaluationError} (same : c.Errors first second) :
    c.Computations related (throw first) (throw second) :=
  fun _ _ environments => .some ⟨.error same, environments⟩

theorem exhausted : c.Computations related Evaluation.exhausted Evaluation.exhausted :=
  fun _ _ _ => .none

theorem get : c.Computations c.environment get get :=
  fun _ _ environments => .some ⟨.ok environments, environments⟩

theorem set {e f : Environment} (environments : c.environment e f) :
    c.Computations Eq (set e) (set f) :=
  fun _ _ _ => .some ⟨.ok rfl, environments⟩

theorem modify {first second : Environment → Environment}
    (kept : ∀ e f, c.environment e f → c.environment (first e) (second f)) :
    c.Computations Eq (modify first) (modify second) :=
  fun e f environments => .some ⟨.ok rfl, kept e f environments⟩

/-- Alike results that do not depend on the environments are alike computations. -/
theorem liftExcept {first : Except EvaluationError α} {second : Except EvaluationError β}
    (same : c.Results related first second) :
    c.Computations related (liftExcept first) (liftExcept second) := by
  intro e f environments
  rw [Evaluation.runIn_liftExcept, Evaluation.runIn_liftExcept]
  exact .some ⟨same, environments⟩

/-- Computations in sequence stay together if the second ones do for related results of the first.-/
theorem bind {first : Evaluation α} {second : Evaluation β} {firstNext : α → Evaluation γ}
    {secondNext : β → Evaluation δ} (head : c.Computations related first second)
    (tail : ∀ a b, related a b → c.Computations next (firstNext a) (secondNext b)) :
    c.Computations next (first >>= firstNext) (second >>= secondNext) := by
  intro e f environments
  rw [Evaluation.runIn_bind, Evaluation.runIn_bind]
  have started := head e f environments
  cases left : first.runIn e with
  | none =>
    rw [left] at started
    cases right : second.runIn f with
    | none => exact .none
    | some outcome =>
      rw [right] at started
      cases started
  | some outcome =>
    rw [left] at started
    cases right : second.runIn f with
    | none =>
      rw [right] at started
      cases started
    | some other =>
      rw [right] at started
      obtain ⟨result, after⟩ := outcome
      obtain ⟨otherResult, otherAfter⟩ := other
      obtain ⟨results, afters⟩ : c.Results related result otherResult ∧
        c.environment after otherAfter := by
        cases started with
        | some same => exact same
      cases results with
      | ok same => exact tail _ _ same after otherAfter afters
      | error same => exact .some ⟨.error same, afters⟩

end Computations

/-- Evaluators that keep alike expressions together. -/
def Evaluators (c : Simulation) (first second : Evaluator) : Prop :=
  ∀ m n, c.Nodes m n → c.Computations c.Values (first m) (second n)

namespace Evaluators

variable {first second : Evaluator} (inner : c.Evaluators first second)
include inner

/-- Alike operands have alike values, and those without a value are left out alike. -/
theorem values {left right : List Node} (operands : List.Forall₂ c.Nodes left right) :
    c.Computations (List.Forall₂ c.Values) (first.values left) (second.values right) := by
  induction operands with
  | nil => exact .pure .nil
  | cons head _ ih =>
    refine (inner _ _ head).bind fun v w sameValue => ih.bind fun vs ws sameOthers => .pure ?_
    rw [sameValue.isVoid_eq]
    by_cases isVoid : w.isVoid
    · simpa only [isVoid, ↓reduceIte] using sameOthers
    · simpa only [isVoid, Bool.false_eq_true, ↓reduceIte] using .cons sameValue sameOthers

/-- Alike sequences have alike last values. -/
theorem sequence {left right : List Node} (operands : List.Forall₂ c.Nodes left right)
    {v w : Value} (latest : c.Values v w) :
    c.Computations c.Values (first.sequence v left) (second.sequence w right) := by
  induction operands generalizing v w with
  | nil => exact .pure latest
  | cons head _ ih => exact (inner _ _ head).bind fun _ _ sameValue => ih sameValue

/-- The values to bind correspond, and they are values indeed. -/
theorem bindable {m n : Node} (same : c.Nodes m n) :
    c.Computations (fun v w => c.Values v w ∧ v.isVoid = false) (first.bindable m)
      (second.bindable n) := by
  refine (inner m n same).bind fun v w sameValue => ?_
  rw [← sameValue.isVoid_eq]
  by_cases isVoid : v.isVoid
  · simp only [isVoid, ↓reduceIte]
    exact .throw (.malformedDefinition .noValue same.span)
  · simp only [isVoid, Bool.false_eq_true, ↓reduceIte]
    exact .pure ⟨sameValue, by simpa using isVoid⟩

/-- Alike conditionals choose the same part, as alike conditions are true alike. -/
theorem conditional {left right : List Node} (operands : List.Forall₂ c.Nodes left right)
    {a b : Span} (spans : c.span a b) :
    c.Computations c.Values (first.conditional left a) (second.conditional right b) := by
  unfold Evaluator.conditional
  extract_lets choose otherChoose
  have together : ∀ {m n m' n' : Node} {alternative alternative' : Evaluation Value},
      c.Nodes m n → c.Nodes m' n' → c.Computations c.Values alternative alternative' →
      c.Computations c.Values (choose m m' alternative) (otherChoose n n' alternative') := by
    intro m n m' n' alternative alternative' test consequent other
    refine (inner m n test).bind fun v w sameValue => ?_
    cases sameValue with
    | procedure => exact other
    | void => exact other
    | @token atom =>
      split
      · exact inner m' n' consequent
      · exact other
  have malformed : c.Computations c.Values
      (throw (.malformedConditional a)) (throw (.malformedConditional b)) :=
    .throw (.malformedConditional spans)
  match left, right, operands with
  | [], [], .nil => exact malformed
  | [_], [_], .cons _ .nil => exact malformed
  | [_, _], [_, _], .cons test (.cons consequent .nil) =>
    exact together test consequent (.pure .void)
  | [_, _, _], [_, _, _], .cons test (.cons consequent (.cons alternative .nil)) =>
    exact together test consequent (inner _ _ alternative)
  | _ :: _ :: _ :: _ :: _, _ :: _ :: _ :: _ :: _, .cons _ (.cons _ (.cons _ (.cons _ _))) =>
    exact malformed

section Forms

variable (lawful : c.Lawful) {a b : Span} (spans : c.span a b)
include lawful spans

/-- Alike definitions bind the same name to alike values, or are refused alike. -/
theorem definition {left right : List Node} (operands : List.Forall₂ c.Nodes left right)
    (keyword : c.leaf (.keyword (.special .definition))) :
    c.Computations c.Values (first.definition left a) (second.definition right b) := by
  have malformed : c.Computations c.Values (throw (.malformedDefinition .definitionShape a))
      (throw (.malformedDefinition .definitionShape b)) :=
    .throw (.malformedDefinition .definitionShape spans)
  match left, right, operands with
  | [], [], .nil => exact malformed
  | _ :: _, _ :: _, .cons (.list signature signatureSpans) body =>
    refine (Computations.liftExcept
      (Likeness.namedProcedure lawful.toLawful spans signature body signatureSpans)).bind ?_
    intro first second related
    obtain ⟨name, callee⟩ := first
    obtain ⟨_, other⟩ := second
    obtain ⟨rfl, allowed, same⟩ := related
    refine (Computations.modify fun e f environments => ?_).bind fun _ _ _ => .pure .void
    exact lawful.define environments keyword allowed (.procedure same) rfl
  | .atom (.identifier name) _ :: [_], .atom _ _ :: [_],
      .cons (.atom allowed _) (.cons value .nil) =>
    refine (bindable inner value).bind fun v w same => ?_
    refine (Computations.modify fun e f environments => ?_).bind fun _ _ _ => .pure .void
    exact lawful.define environments keyword allowed same.1 same.2
  | .atom (.identifier name) _ :: [], .atom _ _ :: [], .cons (.atom allowed _) .nil =>
    exact malformed
  | .atom (.identifier name) _ :: _ :: _ :: _, .atom _ _ :: _ :: _ :: _,
      .cons (.atom allowed _) (.cons _ (.cons _ _)) =>
    exact malformed
  | .atom (.number _) _ :: _, .atom _ _ :: _, .cons (.atom allowed tokenSpans) _
  | .atom (.string _) _ :: _, .atom _ _ :: _, .cons (.atom allowed tokenSpans) _
  | .atom (.boolean _) _ :: _, .atom _ _ :: _, .cons (.atom allowed tokenSpans) _
  | .atom (.keyword _) _ :: _, .atom _ _ :: _, .cons (.atom allowed tokenSpans) _ =>
    exact .throw (.malformedDefinition (.definitionTarget (.atom allowed tokenSpans)) tokenSpans)

theorem assignment {left right : List Node} (operands : List.Forall₂ c.Nodes left right)
    (keyword : c.leaf (.keyword (.special .assignment))) :
    c.Computations c.Values (first.assignment left a) (second.assignment right b) := by
  have malformed : c.Computations c.Values (throw (.malformedDefinition .assignmentShape a))
      (throw (.malformedDefinition .assignmentShape b)) :=
    .throw (.malformedDefinition .assignmentShape spans)
  have target : ∀ {m n : Node}, c.Nodes m n → c.Computations c.Values
      (throw (.malformedDefinition (.assignmentTarget m) m.span))
      (throw (.malformedDefinition (.assignmentTarget n) n.span)) :=
    fun same => .throw (.malformedDefinition (.assignmentTarget same) same.span)
  match left, right, operands with
  | [], [], .nil => exact malformed
  | [_], [_], .cons _ .nil =>
    simpa only [Evaluator.assignment] using malformed
  | _ :: _ :: _ :: _, _ :: _ :: _ :: _, .cons _ (.cons _ (.cons _ _)) =>
    simpa only [Evaluator.assignment] using malformed
  | [.list _ _, _], [.list _ _, _], .cons same (.cons _ .nil) => exact target same
  | [.atom (.number _) _, _], [.atom _ _, _], .cons (.atom allowed tokenSpans) (.cons _ .nil)
  | [.atom (.string _) _, _], [.atom _ _, _], .cons (.atom allowed tokenSpans) (.cons _ .nil)
  | [.atom (.boolean _) _, _], [.atom _ _, _], .cons (.atom allowed tokenSpans) (.cons _ .nil)
  | [.atom (.keyword _) _, _], [.atom _ _, _], .cons (.atom allowed tokenSpans) (.cons _ .nil) =>
    exact target (.atom allowed tokenSpans)
  | [.atom (.identifier name) _, _], [.atom _ _, _],
      .cons (.atom allowed tokenSpans) (.cons value .nil) =>
    refine (bindable inner value).bind fun v w same =>
      Computations.get.bind fun e f environments => ?_
    have found := lawful.lookup environments allowed
    cases bound : e.lookup? name with
    | none =>
      rw [bound] at found
      cases otherBound : f.lookup? name with
      | some _ =>
        rw [otherBound] at found
        cases found
      | none =>
        simp only [Environment.assign?, bound, otherBound, Option.map_none]
        have failed : c.Computations Eq (throw (.unbound name _) : Evaluation Unit)
            (throw (.unbound name _)) := .throw (.unbound allowed tokenSpans)
        exact failed.bind fun _ _ _ => .pure .void
    | some _ =>
      rw [bound] at found
      cases otherBound : f.lookup? name with
      | none =>
        rw [otherBound] at found
        cases found
      | some _ =>
        simp only [Environment.assign?, bound, otherBound, Option.map_some]
        refine (Computations.set ?_).bind fun _ _ _ => .pure .void
        exact lawful.assign environments keyword allowed (by rw [bound]; rfl) same.1 same.2

theorem special {left right : List Node} (operands : List.Forall₂ c.Nodes left right)
    (form : SpecialForm) (keyword : c.leaf (.keyword (.special form))) :
    c.Computations c.Values (first.special form left a) (second.special form right b) := by
  cases form with
  | conditional => exact conditional inner operands spans
  | definition => exact definition inner lawful spans operands keyword
  | assignment => exact assignment inner lawful spans operands keyword
  | abstraction =>
    exact (Computations.liftExcept (Likeness.abstraction lawful.toLawful spans operands)).bind
      fun _ _ same => .pure (.procedure same)
  | sequence => exact sequence inner operands .void

theorem callBuiltin {left right : List Node} (operands : List.Forall₂ c.Nodes left right)
    (builtin : Builtin) (keyword : c.leaf (.keyword (.builtin builtin))) :
    c.Computations c.Values (first.callBuiltin builtin left a)
      (second.callBuiltin builtin right b) := by
  refine Computations.get.bind fun e f environments => ?_
  rw [← lawful.provides environments keyword]
  by_cases provided : e.provides builtin
  · simp only [provided, ↓reduceIte]
    refine (values inner operands).bind fun arguments others same => ?_
    rw [← Likeness.apply_eq builtin same]
    have allowed : ∀ atom, .token atom ∈ arguments → c.value atom :=
      fun atom member => Likeness.allowed_of_mem same member
    cases applied : builtin.apply arguments with
    | ok token => exact .pure (.token (lawful.result keyword allowed applied))
    | error cause => exact .throw (.builtin (lawful.failure keyword allowed applied) spans)
  · simp only [provided, Bool.false_eq_true, ↓reduceIte]
    refine .throw (.notCallable ?_ spans)
    rintro _ ⟨⟩
    exact lawful.missing_of_not_provides environments keyword (by simpa using provided)

/-- Alike calls of alike procedures substitute alike arguments, or are refused alike. -/
theorem callProcedure {left right : List Node} (operands : List.Forall₂ c.Nodes left right)
    {callee other : Procedure} (same : c.Procedures callee other) :
    c.Computations c.Values (first.callProcedure callee left a)
      (second.callProcedure other right b) := by
  refine (values inner operands).bind fun arguments others sameArguments => ?_
  rw [← sameArguments.length_eq, ← same.parameters]
  by_cases count : arguments.length = callee.parameters.length
  · simp only [count, ↓reduceIte]
    exact inner _ _ (same.instantiate lawful.toLawful sameArguments)
  · simp only [count, ↓reduceIte]
    exact .throw (.argumentCount spans)

/-- Alike combinations are evaluated alike, whatever their operators are. -/
theorem combination {left right : List Node} (operands : List.Forall₂ c.Nodes left right)
    {m n : Node} (operator : c.Nodes m n) :
    c.Computations c.Values (first.combination m left a) (second.combination n right b) := by
  have uncallable : ∀ operator, (∀ builtin, operator ≠ .missing builtin) →
      c.Computations c.Values (throw (.notCallable operator m.span))
        (throw (.notCallable operator n.span)) :=
    fun _ notMissing => .throw (.notCallable (fun _ equal => absurd equal (notMissing _))
      operator.span)
  refine (inner m n operator).bind fun v w sameValue => ?_
  cases sameValue with
  | procedure same => exact callProcedure inner lawful spans operands same
  | void => exact uncallable _ fun _ => Uncallable.noConfusion
  | @token atom allowed =>
    have leaf := lawful.leaf_of_value allowed
    cases atom with
    | keyword word =>
      cases word with
      | builtin builtin => exact callBuiltin inner lawful spans operands builtin leaf
      | special form => exact special inner lawful spans operands form leaf
    | _ => exact uncallable _ fun _ => Uncallable.noConfusion

end Forms

/-- One layer of evaluation stays together if the evaluations inside do. -/
theorem evaluateWith (lawful : c.Lawful) :
    c.Evaluators (evaluateWith first) (evaluateWith second) := by
  intro m n same
  cases same with
  | list children spans =>
    cases children with
    | nil => exact .throw (.notCallable (fun _ => Uncallable.noConfusion) spans)
    | cons operator operands => exact combination inner lawful spans operands operator
  | @atom token _ _ allowed spans =>
    have value : (∀ name, token ≠ .identifier name) →
        c.Computations c.Values (pure (.token token)) (pure (.token token)) :=
      fun notIdentifier => .pure (.token (lawful.value_of_leaf allowed notIdentifier))
    cases token with
    | identifier name =>
      refine Computations.get.bind fun e f environments => ?_
      have found := lawful.lookup environments allowed
      generalize e.lookup? name = left, f.lookup? name = right at found ⊢
      cases found with
      | none => exact .throw (.unbound allowed spans)
      | some same => exact .pure same
    | _ => exact value fun _ => Token.noConfusion

end Evaluators

/-- **Evaluations stay together.** With the same depth, alike expressions have alike outcomes in
related environments. -/
theorem Lawful.evaluate (lawful : c.Lawful) (depth : Nat) :
    c.Evaluators (evaluate depth) (evaluate depth) := by
  induction depth with
  | zero => exact fun _ _ _ => .exhausted
  | succ depth ih => exact ih.evaluateWith lawful

/-- Where one of two alike expressions has an outcome, so has the other. -/
theorem Lawful.evaluates (lawful : c.Lawful) {m n : Node} (same : c.Nodes m n) {e f : Environment}
    (environments : c.environment e f) {left : Outcome Value} (ran : Evaluates m e left) :
    ∃ right, Evaluates n f right ∧ c.Results c.Values left.1 right.1 ∧
      c.environment left.2 right.2 := by
  obtain ⟨depth, ran⟩ := ran
  obtain ⟨right, other, related⟩ := (lawful.evaluate depth m n same).outcome environments ran
  exact ⟨right, ⟨depth, other⟩, related⟩

end Simulation

end SubstLisp
