import SubstLisp.Proofs.Session.ReadBack
import SubstLisp.Proofs.Session.Spanless

/-! # Definitions of procedures, in short and in full

A procedure can be defined by an expression for a call of it, `(define (name parameters) body)`, or
by an abstraction, `(define name (lambda (parameters) body))`. Both leave no value and bind the name
to the same procedure up to spans, so no later text tells them apart
(`SubstLisp.shorthand_means_abstraction`).

The procedure has the span of the whole definition in one case and that of the abstraction in the
other. Also, only the first way insists that its parameters are names.
-/

namespace SubstLisp

/-- A name as an expression. -/
def Node.ofName (name : String) : Node :=
  .atom (.identifier name) .nowhere

/-- The definition of a procedure by its name, its parameters and its body: `(define (name
parameters) body)`. -/
def Node.shorthand (name : String) (parameters : List String) (body : List Node) : Node :=
  .list (.atom (.keyword (.special .definition)) .nowhere ::
    .list (.ofName name :: parameters.map .ofName) .nowhere :: body) .nowhere

/-- The definition of a name as an abstraction: `(define name (lambda (parameters) body))`. -/
def Node.longhand (name : String) (parameters : List String) (body : List Node) : Node :=
  .list [.atom (.keyword (.special .definition)) .nowhere, .ofName name,
    .list (.atom (.keyword (.special .abstraction)) .nowhere ::
      .list (parameters.map .ofName) .nowhere :: body) .nowhere] .nowhere

/-- The procedure that takes parameters of the given names. -/
def Procedure.ofNames (parameters : List String) (body : List Node) : Procedure where
  parameters := parameters.map .identifier
  body := bodyOf body .nowhere
  span := .nowhere

/-! ### Both ways check their parameters -/

theorem parameterTokens_ofName (parameters : List String) :
    parameterTokens (parameters.map .ofName) = .ok (parameters.map .identifier) := by
  rw [← parameterTokens_atoms _ .nowhere, List.map_map]
  rfl

theorem parameterNames_ofName (parameters : List String) :
    parameterNames (parameters.map .ofName) = .ok (parameters.map .identifier) := by
  induction parameters with
  | nil => rfl
  | cons name rest ih =>
    rw [List.map_cons, List.map_cons, Node.ofName, parameterNames, ih]
    rfl

section Definitions

variable (name : String) (parameters : List String) {body : List Node} (nonempty : body ≠ [])
include nonempty

/-- The shorthand of a definition names the procedure with these parameters. -/
theorem namedProcedure_ofNames :
    namedProcedure (.ofName name :: parameters.map .ofName) .nowhere body .nowhere =
      .ok (name, .ofNames parameters body) := by
  rw [Node.ofName, namedProcedure, parameterNames_ofName,
    if_neg (by rwa [List.isEmpty_iff])]
  rfl

/-- An abstraction is the procedure with these parameters. -/
theorem abstraction_ofNames :
    abstraction (.list (parameters.map .ofName) .nowhere :: body) .nowhere =
      .ok (.ofNames parameters body) := by
  obtain ⟨first, others, rfl⟩ := List.exists_cons_of_ne_nil nonempty
  rw [abstraction, parameterTokens_ofName]
  rfl

/-- The short way binds the name at once. -/
theorem evaluates_shorthand (environment : Environment) :
    Evaluates (.shorthand name parameters body) environment
      (.ok .void, environment.define name (.procedure (.ofNames parameters body))) := by
  refine ⟨2, ?_⟩
  rw [Node.shorthand, evaluate_special, Evaluator.special, Evaluator.definition,
    namedProcedure_ofNames name parameters nonempty]
  rfl

/-- The long way evaluates the abstraction, and then binds the name. -/
theorem evaluates_longhand (environment : Environment) :
    Evaluates (.longhand name parameters body) environment
      (.ok .void, environment.define name (.procedure (.ofNames parameters body))) := by
  have value := runIn_evaluate_abstraction (abstraction_ofNames parameters nonempty) 0 .nowhere
    environment
  refine ⟨3, ?_⟩
  rw [Node.longhand, evaluate_special, Evaluator.special, Node.ofName, Evaluator.definition,
    Evaluation.runIn_bind, Evaluator.bindable, Evaluation.runIn_bind, value]
  rfl

end Definitions

/-- A definition that is written elsewhere leaves no value either, and binds the same up to
spans. -/
theorem Evaluates.void_elsewhere {m n : Node} (same : m.withoutSpans = n.withoutSpans)
    {environment after : Environment} (evaluates : Evaluates m environment (.ok .void, after)) :
    ∃ last, Evaluates n environment (.ok .void, last) ∧ after.SameButSpans last := by
  obtain ⟨⟨result, last⟩, evaluatesOther, results, environments⟩ :=
    spanless_lawful.evaluates (spanless_nodes same) (.refl environment) evaluates
  cases results with
  | ok values =>
    cases values with
    | void => exact ⟨last, evaluatesOther, environments⟩

/-- **The two ways to define a procedure are the same, for good.** Wherever they are written, both
leave no value and bind the name to the procedure of the given parameters and body, up to spans.
Whatever texts are interpreted next, in one session or the other, the answers are the same up to
spans. -/
theorem shorthand_means_abstraction {name : String} {parameters : List String} {body : List Node}
    (nonempty : body ≠ []) {short long : Node}
    (isShort : (Node.shorthand name parameters body).withoutSpans = short.withoutSpans)
    (isLong : (Node.longhand name parameters body).withoutSpans = long.withoutSpans)
    (environment : Environment) :
    ∃ e f, Evaluates short environment (.ok .void, e) ∧ Evaluates long environment (.ok .void, f) ∧
      (environment.define name (.procedure (.ofNames parameters body))).SameButSpans e ∧
      e.SameButSpans f ∧ e.AnswersLike f ∧ f.AnswersLike e := by
  obtain ⟨e, evaluatesShort, bindsShort⟩ :=
    (evaluates_shorthand name parameters nonempty environment).void_elsewhere isShort
  obtain ⟨f, evaluatesLong, bindsLong⟩ :=
    (evaluates_longhand name parameters nonempty environment).void_elsewhere isLong
  have same : e.SameButSpans f := bindsShort.symm.trans bindsLong
  exact ⟨e, f, evaluatesShort, evaluatesLong, bindsShort, same, same.answersLike,
    same.symm.answersLike⟩

/-- A name that stands twice among the parameters, before a body of two expressions, one of which
fails when the procedure is called. -/
theorem shorthand_means_abstraction_of_repeated_parameters :
    let parameters := ["x", "x"]
    let body : List Node := [.ofName "x", .ofName "y"]
    let short : Node := .list [.atom (.keyword (.special .definition)) ⟨1, 7⟩,
      .list [.atom (.identifier "f") ⟨9, 10⟩, .atom (.identifier "x") ⟨11, 12⟩,
        .atom (.identifier "x") ⟨13, 14⟩] ⟨8, 15⟩,
      .atom (.identifier "x") ⟨16, 17⟩, .atom (.identifier "y") ⟨18, 19⟩] ⟨0, 20⟩
    let long : Node := .list [.atom (.keyword (.special .definition)) ⟨1, 7⟩,
      .atom (.identifier "f") ⟨8, 9⟩,
      .list [.atom (.keyword (.special .abstraction)) ⟨11, 17⟩,
        .list [.atom (.identifier "x") ⟨19, 20⟩, .atom (.identifier "x") ⟨21, 22⟩] ⟨18, 23⟩,
        .atom (.identifier "x") ⟨24, 25⟩, .atom (.identifier "y") ⟨26, 27⟩] ⟨10, 28⟩] ⟨0, 29⟩
    readProgram "(define (f x x) x y)" = .ok [short] ∧
    readProgram "(define f (lambda (x x) x y))" = .ok [long] ∧
    body ≠ [] ∧
    (Node.shorthand "f" parameters body).withoutSpans = short.withoutSpans ∧
    (Node.longhand "f" parameters body).withoutSpans = long.withoutSpans ∧
    ∃ e f, Evaluates short .standard (.ok .void, e) ∧ Evaluates long .standard (.ok .void, f) ∧
      (Environment.standard.define "f" (.procedure (.ofNames parameters body))).SameButSpans e ∧
      e.SameButSpans f ∧ e.AnswersLike f ∧ f.AnswersLike e := by
  intro parameters body short long
  have readShort : readProgram "(define (f x x) x y)" = .ok [short] := by
    have scanned : lexemes "(define (f x x) x y)" =
        [⟨.opener, ⟨0, 1⟩⟩, ⟨.atom "define", ⟨1, 7⟩⟩, ⟨.opener, ⟨8, 9⟩⟩, ⟨.atom "f", ⟨9, 10⟩⟩,
          ⟨.atom "x", ⟨11, 12⟩⟩, ⟨.atom "x", ⟨13, 14⟩⟩, ⟨.closer, ⟨14, 15⟩⟩,
          ⟨.atom "x", ⟨16, 17⟩⟩, ⟨.atom "y", ⟨18, 19⟩⟩, ⟨.closer, ⟨19, 20⟩⟩] := rfl
    simp only [readProgram, scanned, Reader.all, Reader.ofLexemes, readAll, readInside]
    rfl
  have readLong : readProgram "(define f (lambda (x x) x y))" = .ok [long] := by
    have scanned : lexemes "(define f (lambda (x x) x y))" =
        [⟨.opener, ⟨0, 1⟩⟩, ⟨.atom "define", ⟨1, 7⟩⟩, ⟨.atom "f", ⟨8, 9⟩⟩, ⟨.opener, ⟨10, 11⟩⟩,
          ⟨.atom "lambda", ⟨11, 17⟩⟩, ⟨.opener, ⟨18, 19⟩⟩, ⟨.atom "x", ⟨19, 20⟩⟩,
          ⟨.atom "x", ⟨21, 22⟩⟩, ⟨.closer, ⟨22, 23⟩⟩, ⟨.atom "x", ⟨24, 25⟩⟩,
          ⟨.atom "y", ⟨26, 27⟩⟩, ⟨.closer, ⟨27, 28⟩⟩, ⟨.closer, ⟨28, 29⟩⟩] := rfl
    simp only [readProgram, scanned, Reader.all, Reader.ofLexemes, readAll, readInside]
    rfl
  have nonempty : body ≠ [] := List.cons_ne_nil _ _
  have isShort : (Node.shorthand "f" parameters body).withoutSpans = short.withoutSpans := rfl
  have isLong : (Node.longhand "f" parameters body).withoutSpans = long.withoutSpans := rfl
  exact ⟨readShort, readLong, nonempty, isShort, isLong,
    shorthand_means_abstraction nonempty isShort isLong .standard⟩

end SubstLisp
