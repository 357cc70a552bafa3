import SubstLisp.Proofs.Evaluation.BuiltinResults
import SubstLisp.Proofs.Evaluation.Vocabulary
import SubstLisp.Proofs.Number.Exactness

/-! # Exact programs stay exact

Floating-point numbers come from two places only: they are written down, or they are square roots.
An evaluation that meets neither in its expression nor in what is bound has an exact result, binds
exact values only, and fails for no arithmetic cause that floating-point numbers have
(`SubstLisp.evaluation_exact`).
-/

namespace SubstLisp

/-- The tokens of exact programs: no floating-point numbers, and no square root. -/
def Token.StaysExact (token : Token) : Prop :=
  token.IsExact ∧ token ≠ .keyword (.builtin .sqrt)

instance : DecidablePred Token.StaysExact :=
  fun _ => inferInstanceAs (Decidable (_ ∧ _))

/-- An arithmetic cause is one that exact numbers can lead to. -/
def BuiltinError.IsExact : BuiltinError → Prop
  | .arithmetic cause => cause.IsExact
  | .arity _ _ | .notANumber _ _ => True

/-- The operation turns exact numbers into exact numbers, or fails as exact numbers can. -/
def Operation.StaysExact : Operation → Prop
  | .fold neutral combine =>
      neutral.IsExact ∧ ∀ a b, a.IsExact → b.IsExact → SubstLisp.StaysExact (combine a b)
  | .binary apply => ∀ a b, a.IsExact → b.IsExact → SubstLisp.StaysExact (apply a b)
  | .unary apply => ∀ a, a.IsExact → SubstLisp.StaysExact (apply a)
  | .comparison _ | .selection _ => True

/-- An operation that stays exact turns exact numbers into exact numbers. -/
theorem Operation.StaysExact.keeps {operation : Operation} (stays : operation.StaysExact) :
    operation.Keeps Number.IsExact := by
  cases operation with
  | fold neutral combine =>
    exact ⟨stays.1, fun a b _ left right found => (found ▸ stays.2 a b left right).result⟩
  | binary apply => exact fun a b _ left right found => (found ▸ stays a b left right).result
  | unary apply => exact fun a _ exact found => (found ▸ stays a exact).result
  | comparison _ => trivial
  | selection _ => trivial

/-- An operation that stays exact fails on exact numbers for their causes only. -/
theorem Operation.StaysExact.failsOnly {operation : Operation} (stays : operation.StaysExact) :
    operation.FailsOnly Number.IsExact ArithmeticError.IsExact := by
  cases operation with
  | fold neutral combine =>
    exact fun a b _ left right failed => (failed ▸ stays.2 a b left right).cause
  | binary apply => exact fun a b _ left right failed => (failed ▸ stays a b left right).cause
  | unary apply => exact fun a _ exact failed => (failed ▸ stays a exact).cause
  | comparison _ => trivial
  | selection _ => trivial

/-- Every builtin but the square root stays exact. -/
theorem Builtin.staysExact {builtin : Builtin} (notRoot : builtin ≠ .sqrt) :
    builtin.operation.StaysExact := by
  cases builtin with
  | add => exact ⟨trivial, fun _ _ => Number.add_staysExact⟩
  | subtract => exact fun _ _ => Number.sub_staysExact
  | multiply => exact ⟨trivial, fun _ _ => Number.mul_staysExact⟩
  | divide => exact fun _ _ => Number.div_staysExact
  | sqrt => exact absurd rfl notRoot
  | floor => exact fun _ => Number.floor_staysExact
  | ceiling => exact fun _ => Number.ceiling_staysExact
  | round => exact fun _ => Number.round_staysExact
  | abs => exact fun _ => Number.abs_staysExact
  | _ => trivial

/-- A square root cannot be asked for without its keyword. -/
theorem Builtin.staysExact_of_keyword {builtin : Builtin}
    (keyword : Token.StaysExact (.keyword (.builtin builtin))) : builtin.operation.StaysExact := by
  refine Builtin.staysExact ?_
  rintro rfl
  exact keyword.2 rfl

/-- Exact tokens without the square root are a vocabulary that evaluation does not leave. -/
theorem exact_vocabulary_lawful : (vocabulary Token.StaysExact BuiltinError.IsExact).Lawful where
  leaf_of_value := id
  value_of_leaf allowed _ := allowed
  sequence := ⟨trivial, by decide⟩
  abstraction := ⟨trivial, by decide⟩
  result := by
    intro builtin arguments token keyword exact applied
    have stays := Builtin.staysExact_of_keyword keyword
    have numbers : ∀ number, .token (.number number) ∈ arguments → number.IsExact :=
      fun number member => (exact _ member).1
    rcases Builtin.apply_eq_ok stays.keeps numbers applied with
      ⟨number, rfl, isExact⟩ | ⟨value, rfl⟩
    · exact ⟨isExact, Token.noConfusion⟩
    · exact ⟨trivial, Token.noConfusion⟩
  failure := by
    intro builtin arguments cause keyword exact applied
    have stays := Builtin.staysExact_of_keyword keyword
    have numbers : ∀ number, .token (.number number) ∈ arguments → number.IsExact :=
      fun number member => (exact _ member).1
    cases cause with
    | arithmetic cause => exact Builtin.apply_eq_error stays.keeps stays.failsOnly numbers applied
    | arity _ _ => trivial
    | notANumber _ _ => trivial

/-- **Exact programs stay exact.** If neither an expression nor any bound value has a floating-point
number or the square root in it, then its value has no floating-point number in it, and no more has
anything that is bound when the evaluation ends, whether or not it fails. It does not fail because
something is outside the domain of a function or out of the range of integers. -/
theorem evaluation_exact {node : Node} {environment : Environment} {outcome : Outcome Value}
    (exact : MadeOf Token.StaysExact node environment)
    (evaluates : Evaluates node environment outcome) :
    (∀ value, outcome.1 = .ok value → ∀ token ∈ value.leaves, token.IsExact) ∧
    outcome.2.BindsOnly Token.IsExact ∧
    ∀ builtin cause span, outcome.1 = .error (.builtin builtin (.arithmetic cause) span) →
      cause ≠ .outsideDomain ∧ ∀ x, cause ≠ .outOfRange x := by
  have unguarded : (vocabulary Token.StaysExact BuiltinError.IsExact).Keeps fun _ => True :=
    ⟨fun _ _ _ _ _ => trivial, fun _ _ _ _ _ _ => trivial⟩
  obtain ⟨outcomeExact, -⟩ :=
    evaluates.keeps_vocabulary exact_vocabulary_lawful unguarded exact trivial
  refine ⟨?_, ?_, ?_⟩
  · exact fun value isValue token member => (outcomeExact.value value isValue token member).1
  · exact fun name value found token member =>
      (outcomeExact.bindings name value found token member).1
  · intro builtin cause span failed
    have causeExact : cause.IsExact := outcomeExact.failure builtin _ span failed
    cases cause with
    | divisionByZero => exact ⟨ArithmeticError.noConfusion, fun _ => ArithmeticError.noConfusion⟩
    | overflow => exact ⟨ArithmeticError.noConfusion, fun _ => ArithmeticError.noConfusion⟩
    | outsideDomain => exact causeExact.elim
    | outOfRange x => exact causeExact.elim

/-- A procedure that halves its argument by another name of division. The half is bound, and then
the largest integer is added to it. -/
theorem evaluation_exact_in_an_overflow :
    let halve : Procedure := {
      parameters := [.identifier "n"]
      body := .list [.atom (.identifier "over") ⟨1, 5⟩, .atom (.identifier "n") ⟨6, 7⟩,
        .atom (.number (.integer 2)) ⟨8, 9⟩] ⟨0, 10⟩
      span := ⟨0, 20⟩ }
    let e := (Environment.standard.define "over" (.token (.keyword (.builtin .divide)))).define
      "halve" (.procedure halve)
    let half : Node :=
      .list [.atom (.identifier "halve") ⟨1, 6⟩, .atom (.number (.integer 5)) ⟨7, 8⟩] ⟨0, 9⟩
    let node : Node := .list [.atom (.keyword (.special .sequence)) ⟨1, 6⟩,
      .list [.atom (.keyword (.special .definition)) ⟨8, 14⟩, .atom (.identifier "r") ⟨15, 16⟩,
        half] ⟨7, 27⟩,
      .list [.atom (.keyword (.builtin .add)) ⟨29, 30⟩,
        .atom (.number (.integer 9223372036854775807)) ⟨31, 50⟩,
        .atom (.identifier "r") ⟨51, 52⟩] ⟨28, 53⟩] ⟨0, 54⟩
    let outcome : Outcome Value :=
      (.error (.builtin .add (.arithmetic .overflow) ⟨28, 53⟩),
        e.define "r" (.token (.number (.fraction ⟨5, 2⟩))))
    MadeOf Token.StaysExact node e ∧ Evaluates node e outcome ∧
    (∀ value, outcome.1 = .ok value → ∀ token ∈ value.leaves, token.IsExact) ∧
    outcome.2.BindsOnly Token.IsExact ∧
    ∀ builtin cause span, outcome.1 = .error (.builtin builtin (.arithmetic cause) span) →
      cause ≠ .outsideDomain ∧ ∀ x, cause ≠ .outOfRange x := by
  intro halve e half node outcome
  have bindings : e.BindsOnly Token.StaysExact :=
    (Environment.bindsOnly_standard.define "over" (by decide)).define "halve" (by decide +revert)
  have made : MadeOf Token.StaysExact node e := ⟨by decide +revert, bindings⟩
  have evaluates : Evaluates node e outcome := ⟨5, rfl⟩
  exact ⟨made, evaluates, evaluation_exact made evaluates⟩

end SubstLisp
