import SubstLisp.Proofs.Evaluation.Invariants
import SubstLisp.Proofs.Reading.Printing
import SubstLisp.Proofs.Session.Hygiene

/-! # Reading values back

The text of a value is an expression that evaluates to the value, whatever is bound. So the text of
each value that a session returns or binds can be interpreted in any session: unless there is a
floating-point number in it, the value comes back, and nothing is bound
(`SubstLisp.values_read_back`).

This takes more than hygiene. Every token in the values of a session has a text that is read as one
atom, which denotes the token.
-/

namespace SubstLisp

/-- A value that can be read from its text: it is not a name, and all its tokens are legible but for
floating-point numbers. -/
structure Value.Legible (value : Value) : Prop where
  notVoid : value ≠ .void
  notIdentifier : ∀ name, value ≠ .token (.identifier name)
  leaves : ∀ token ∈ value.leaves, token.IsExact → token.Legible

/-! ### Evaluations keep tokens legible -/

/-- An evaluation beside itself that meets only legible tokens and floating-point numbers. -/
def legibility : Likeness where
  span := Eq
  leaf token := token.IsExact → token.Legible
  value token := token.IsExact → token.Legible
  missing _ := True
  cause _ := True

/-- A number that is legible is in canonical form. -/
theorem Token.Legible.canonical {value : Number} (legible : (Token.number value).Legible) :
    value.Canonical :=
  numberLiteral?_canonical (classify_eq_number legible.reads)

theorem Token.legible_boolean (value : Bool) : (Token.boolean value).Legible := by
  cases value with
  | false => exact ⟨by decide, rfl⟩
  | true => exact ⟨by decide, rfl⟩

/-- Evaluation makes legible values of legible expressions. -/
theorem legibility_lawful : legibility.Lawful where
  leaf_of_value allowed := allowed
  value_of_leaf allowed _ := allowed
  sequence _ := ⟨by decide, rfl⟩
  abstraction _ := ⟨by decide, rfl⟩
  result := by
    intro builtin arguments token _ allowed applied isExact
    have canonical : ∀ number, .token (.number number) ∈ arguments → number.Canonical := by
      intro number member
      cases number with
      | fraction q => exact (allowed _ member trivial).canonical
      | _ => trivial
    rcases Builtin.apply_eq_ok builtin.keeps_canonical canonical applied with
      ⟨number, rfl, kept⟩ | ⟨value, rfl⟩
    · exact Number.legible kept isExact
    · exact Token.legible_boolean value
  failure _ _ _ := trivial

/-- Builtin procedures and bindings as hygiene asks for, and bound values of legible tokens. -/
structure Environment.Legible (environment : Environment) : Prop where
  hygienic : environment.Hygienic
  binds : legibility.Binds environment

/-- The values that a text leaves are legible, if it does not fail. -/
def LegibleResult (result : Except Failure (List Value)) : Prop :=
  ∀ values, result = .ok values → ∀ value ∈ values, value.Legible

theorem Environment.legible_standard : Environment.standard.Legible where
  hygienic := Environment.hygienic_standard
  binds := Likeness.binds_standard

/-- A hygienic value is legible if its tokens are. -/
theorem Value.Hygienic.legible {value : Value} (hygienic : value.Hygienic)
    (same : legibility.Values value value) : value.Legible where
  notVoid := hygienic.notVoid
  notIdentifier := hygienic.notIdentifier
  leaves := same.leaves legibility_lawful

theorem Environment.Legible.lookup {environment : Environment} (legible : environment.Legible)
    {name : String} {value : Value} (found : environment.lookup? name = some value) :
    value.Legible :=
  have hygienic := legible.hygienic.values name value (Bindings.mem_of_lookup found)
  hygienic.legible (legible.binds name value found)

/-- Interpreting a text keeps an environment legible, whether or not it fails. -/
theorem Interprets.legible {source : String} {environment : Environment}
    {interpretation : Interpretation} (interprets : Interprets source environment interpretation)
    (legible : environment.Legible) :
    LegibleResult interpretation.1 ∧ interpretation.2.Legible := by
  obtain ⟨result, after⟩ := interprets.hygienic legible.hygienic
  cases read : readProgram source with
  | error cause =>
    obtain rfl := interprets.of_readProgram_error read
    refine ⟨?_, legible⟩
    intro values same
    cases same
  | ok program =>
    rw [interprets_iff_runs read] at interprets
    obtain ⟨outcome, runs, rfl⟩ := interprets
    obtain ⟨allowed, binds⟩ := legibility_lawful.keeps (fun _ _ => Iff.rfl) (fun _ => trivial)
      (legible_of_readProgram read) legible.binds runs
    refine ⟨?_, after, binds⟩
    obtain ⟨cause | found, last⟩ := outcome
    · intro values same
      cases same
    · intro values same value member
      cases same
      exact (result.values found rfl value member).legible (allowed found rfl value member)

/-- Whatever a session returns or binds is legible. -/
theorem Session.legible {history : List (String × Except Failure (List Value))}
    {environment : Environment} (session : Session history environment) :
    environment.Legible ∧ ∀ entry ∈ history, LegibleResult entry.2 :=
  session.invariant Environment.legible_standard fun interprets legible =>
    interprets.legible legible

/-! ### The expression of a value evaluates to the value -/

/-- Atoms are accepted as parameters as they are. -/
theorem parameterTokens_atoms (tokens : List Token) (span : Span) :
    parameterTokens (tokens.map (.atom · span)) = .ok tokens := by
  induction tokens with
  | nil => rfl
  | cons token rest ih =>
    rw [List.map_cons, parameterTokens, ih]
    rfl

/-- A token that is no name evaluates to itself. -/
theorem evaluate_token {token : Token} (notIdentifier : ∀ name, token ≠ .identifier name)
    (depth : Nat) (span : Span) :
    evaluate (depth + 1) (.atom token span) = pure (.token token) := by
  cases token with
  | identifier name => exact absurd rfl (notIdentifier name)
  | _ => rfl

/-- A list behind the keyword of a special form is evaluated as this form. -/
theorem evaluate_special (depth : Nat) (form : SpecialForm) (operands : List Node)
    (start span : Span) :
    evaluate (depth + 2) (.list (.atom (.keyword (.special form)) start :: operands) span) =
      (evaluate (depth + 1)).special form operands span := rfl

/-- An abstraction evaluates to a procedure, whatever is bound, and binds nothing. -/
theorem runIn_evaluate_abstraction {operands : List Node} {span : Span} {callee : Procedure}
    (found : abstraction operands span = .ok callee) (depth : Nat) (start : Span)
    (environment : Environment) :
    (evaluate (depth + 2)
      (.list (.atom (.keyword (.special .abstraction)) start :: operands) span)).runIn environment =
      some (.ok (.procedure callee), environment) := by
  rw [evaluate_special, Evaluator.special, found]
  rfl

/-- Up to spans, the expression of a procedure evaluates to the procedure. -/
theorem runIn_evaluate_node {callee : Procedure} {node : Node}
    (same : callee.node.withoutSpans = node.withoutSpans) :
    ∃ again : Procedure,
      (Value.procedure again).withoutSpans = (Value.procedure callee).withoutSpans ∧
      ∀ environment,
        (evaluate 2 node).runIn environment = some (.ok (.procedure again), environment) := by
  have original : abstraction [.list (callee.parameters.map (.atom · callee.span)) callee.span,
      callee.body] callee.span = .ok callee := by
    rw [abstraction, parameterTokens_atoms]
    rfl
  cases spanless_nodes same with
  | @list _ children _ span members spans =>
    cases members with
    | @cons _ _ _ operands keyword alike =>
      cases keyword with
      | @atom _ _ start _ _ =>
        -- The other operands are alike, so the procedure made of them is alike to the callee.
        have results := Likeness.abstraction spanless_lawful.toLawful spans alike
        rw [original] at results
        cases found : abstraction operands span with
        | error cause =>
          rw [found] at results
          cases results
        | ok again =>
          rw [found] at results
          refine ⟨again, ?_, runIn_evaluate_abstraction found 0 start⟩
          cases results with
          | ok procedures => exact (withoutSpans_of_spanless (.procedure procedures)).symm

/-- Up to spans, the expression of a token that is no name evaluates to the token. -/
theorem runIn_evaluate_atom {token : Token} (notIdentifier : ∀ name, token ≠ .identifier name)
    {place : Span} {node : Node} (same : (Node.atom token place).withoutSpans = node.withoutSpans) :
    ∀ environment,
      (evaluate 2 node).runIn environment = some (.ok (.token token), environment) := by
  cases spanless_nodes same with
  | atom _ _ =>
    intro environment
    rw [evaluate_token notIdentifier]
    rfl

/-- The expression of a procedure has the tokens of the procedure, behind a keyword. -/
theorem Procedure.leaves_node (callee : Procedure) :
    callee.node.leaves =
      .keyword (.special .abstraction) :: (Value.procedure callee).leaves := by
  have parameters : (callee.parameters.map (Node.atom · callee.span)).flatMap Node.leaves =
      callee.parameters := by
    rw [List.flatMap_map]
    exact List.flatMap_singleton' callee.parameters
  simp only [node, Node.leaves, Node.leavesAll, Node.leavesAll_eq_flatMap, parameters,
    Value.leaves, List.singleton_append, List.append_nil]

/-- A legible value is written as an expression of legible tokens that evaluates to it. -/
theorem Value.Legible.exists_node {value : Value} (legible : value.Legible)
    (isExact : ∀ token ∈ value.leaves, token.IsExact) :
    ∃ node : Node, node.text = value.text ∧ (∀ token ∈ node.leaves, token.Legible) ∧
      ∀ other : Node, node.withoutSpans = other.withoutSpans →
        ∃ again : Value, again.withoutSpans = value.withoutSpans ∧ again.isVoid = false ∧
          ∀ environment, (evaluate 2 other).runIn environment = some (.ok again, environment) := by
  have leaves : ∀ token ∈ value.leaves, token.Legible := fun token occurs =>
    legible.leaves token occurs (isExact token occurs)
  cases value with
  | void => exact absurd rfl legible.notVoid
  | token atom =>
    have notIdentifier : ∀ name, atom ≠ .identifier name := fun name same =>
      legible.notIdentifier name (congrArg Value.token same)
    refine ⟨.atom atom .nowhere, rfl, leaves, ?_⟩
    intro other same
    exact ⟨.token atom, rfl, rfl, runIn_evaluate_atom notIdentifier same⟩
  | procedure callee =>
    refine ⟨callee.node, rfl, ?_, ?_⟩
    · intro token occurs
      rw [callee.leaves_node, List.mem_cons] at occurs
      rcases occurs with rfl | inside
      · exact legibility_lawful.abstraction trivial
      · exact leaves token inside
    · intro other same
      obtain ⟨again, equal, evaluates⟩ := runIn_evaluate_node same
      exact ⟨.procedure again, equal, rfl, evaluates⟩

/-- The text of a legible value is interpreted as the value, whatever is bound. -/
theorem Value.Legible.interprets {value : Value} (legible : value.Legible)
    (isExact : ∀ token ∈ value.leaves, token.IsExact) (environment : Environment) :
    ∃ again : Value, Interprets value.text environment (.ok [again], environment) ∧
      again.withoutSpans = value.withoutSpans := by
  obtain ⟨node, text, leaves, evaluates⟩ := legible.exists_node isExact
  have tokens : ∀ written ∈ [node], ∀ token ∈ written.leaves, token.Legible := by
    rwa [List.forall_mem_singleton]
  have blank : ∀ _ : Nat, isBlank ' ' := fun _ => rfl
  obtain ⟨program, read, same⟩ := readProgram_of_legible blank tokens
  change readProgram node.text = .ok program at read
  obtain ⟨other, rfl, equal⟩ := List.map_eq_singleton_iff.mp same
  obtain ⟨again, alike, isVoid, evaluated⟩ := evaluates other equal.symm
  rw [text] at read
  refine ⟨again, (interprets_iff_runs read).mpr ⟨(.ok [again], environment), ⟨2, ?_⟩, rfl⟩, alike⟩
  rw [Evaluator.values, Evaluation.runIn_bind, evaluated]
  simp only [Evaluator.values, pure_bind, isVoid, Bool.false_eq_true, ↓reduceIte,
    Evaluation.runIn_pure]

/-- **Values read back.** The text of a value that some session returns or binds, and that has no
floating-point number in it, can be interpreted whatever is bound. The value comes back up to spans,
no other value does, and nothing is bound. -/
theorem values_read_back {history : List (String × Except Failure (List Value))}
    {environment : Environment} (session : Session history environment) {value : Value}
    (known : (∃ name, environment.lookup? name = some value) ∨
      ∃ entry ∈ history, ∃ values, entry.2 = .ok values ∧ value ∈ values)
    (isExact : ∀ token ∈ value.leaves, token.IsExact) (other : Environment) :
    ∃ again : Value, Interprets value.text other (.ok [again], other) ∧
      again.withoutSpans = value.withoutSpans := by
  obtain ⟨legible, results⟩ := session.legible
  rcases known with ⟨name, bound⟩ | ⟨entry, member, values, returned, inside⟩
  · exact (legible.lookup bound).interprets isExact other
  · exact (results entry member values returned value inside).interprets isExact other

/-- A procedure with a number in the place of its parameter, and with a body of two expressions,
which is read back where no builtin procedure is available. -/
theorem values_read_back_without_builtins :
    let callee : Value := .procedure {
      parameters := [.number (.integer 3)]
      body := .list [.atom (.keyword (.special .sequence)) ⟨13, 35⟩,
        .atom (.number (.integer 3)) ⟨25, 26⟩,
        .list [.atom (.keyword (.builtin .multiply)) ⟨28, 29⟩,
          .atom (.number (.integer 3)) ⟨30, 31⟩, .atom (.number (.integer 2)) ⟨32, 33⟩] ⟨27, 34⟩]
        ⟨13, 35⟩
      span := ⟨13, 35⟩ }
    let source := "((lambda (x) (lambda (x) x (* x 2))) 3)"
    Session [(source, .ok [callee])] .standard ∧
    callee.text = "(lambda (3) (begin 3 (* 3 2)))" ∧
    (∀ token ∈ callee.leaves, token.IsExact) ∧
    ∃ again : Value,
      Interprets "(lambda (3) (begin 3 (* 3 2)))" .empty (.ok [again], .empty) ∧
      again.withoutSpans = callee.withoutSpans := by
  intro callee source
  have scanned : lexemes source =
      [⟨.opener, ⟨0, 1⟩⟩, ⟨.opener, ⟨1, 2⟩⟩, ⟨.atom "lambda", ⟨2, 8⟩⟩, ⟨.opener, ⟨9, 10⟩⟩,
        ⟨.atom "x", ⟨10, 11⟩⟩, ⟨.closer, ⟨11, 12⟩⟩, ⟨.opener, ⟨13, 14⟩⟩,
        ⟨.atom "lambda", ⟨14, 20⟩⟩, ⟨.opener, ⟨21, 22⟩⟩, ⟨.atom "x", ⟨22, 23⟩⟩,
        ⟨.closer, ⟨23, 24⟩⟩, ⟨.atom "x", ⟨25, 26⟩⟩, ⟨.opener, ⟨27, 28⟩⟩, ⟨.atom "*", ⟨28, 29⟩⟩,
        ⟨.atom "x", ⟨30, 31⟩⟩, ⟨.atom "2", ⟨32, 33⟩⟩, ⟨.closer, ⟨33, 34⟩⟩, ⟨.closer, ⟨34, 35⟩⟩,
        ⟨.closer, ⟨35, 36⟩⟩, ⟨.atom "3", ⟨37, 38⟩⟩, ⟨.closer, ⟨38, 39⟩⟩] := by decide +kernel
  have read : readProgram source = .ok [
      .list [
        .list [.atom (.keyword (.special .abstraction)) ⟨2, 8⟩,
          .list [.atom (.identifier "x") ⟨10, 11⟩] ⟨9, 12⟩,
          .list [.atom (.keyword (.special .abstraction)) ⟨14, 20⟩,
            .list [.atom (.identifier "x") ⟨22, 23⟩] ⟨21, 24⟩,
            .atom (.identifier "x") ⟨25, 26⟩,
            .list [.atom (.keyword (.builtin .multiply)) ⟨28, 29⟩, .atom (.identifier "x") ⟨30, 31⟩,
              .atom (.number (.integer 2)) ⟨32, 33⟩] ⟨27, 34⟩] ⟨13, 35⟩] ⟨1, 36⟩,
        .atom (.number (.integer 3)) ⟨37, 38⟩] ⟨0, 39⟩] := by
    refine readProgram_of_pieces ?_
    rw [scanned]
    rfl
  have returned : Interprets source .standard (.ok [callee], .standard) :=
    (interprets_iff_runs read).mpr ⟨_, ⟨3, rfl⟩, rfl⟩
  have session : Session [(source, .ok [callee])] .standard := Session.start.next returned
  have written : callee.text = "(lambda (3) (begin 3 (* 3 2)))" := rfl
  have isExact : ∀ token ∈ callee.leaves, token.IsExact := by
    simp [callee, Value.leaves, Node.leaves, Node.leavesAll, Token.IsExact, Number.IsExact]
  refine ⟨session, written, isExact, ?_⟩
  rw [← written]
  exact values_read_back session
    (.inr ⟨_, List.mem_singleton_self _, _, rfl, List.mem_singleton_self _⟩) isExact .empty

end SubstLisp
