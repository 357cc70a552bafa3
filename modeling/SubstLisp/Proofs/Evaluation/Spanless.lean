import SubstLisp.Proofs.Evaluation.Lockstep
import SubstLisp.Proofs.Evaluation.MovedSpans
import SubstLisp.Proofs.Evaluation.Programs

/-! # Evaluation without spans

Two expressions that differ in nothing but their spans, evaluated in environments that differ in
nothing but the spans inside procedures, have the same outcome up to spans
(`SubstLisp.evaluation_ignores_spans`). In particular they fail with the same message.

Bindings are compared name by name, so the environments may also list them in different orders.
-/

namespace SubstLisp

/-- The span in the place of all others where spans do not matter. -/
def Span.nowhere : Span where
  start := 0
  stop := 0

def Node.withoutSpans (node : Node) : Node :=
  node.mapSpans fun _ => .nowhere

def Value.withoutSpans (value : Value) : Value :=
  value.mapSpans fun _ => .nowhere

def EvaluationError.withoutSpans (error : EvaluationError) : EvaluationError :=
  error.mapSpans fun _ => .nowhere

/-- The same builtin procedures, and each name bound to the same value up to spans or to none. -/
structure Environment.SameButSpans (e f : Environment) : Prop where
  builtins : ∀ builtin, e.provides builtin = f.provides builtin
  bindings : ∀ name,
    (e.lookup? name).map Value.withoutSpans = (f.lookup? name).map Value.withoutSpans

/-- The same value up to spans, or failures of the same kind, with the same message and with the
same causes up to spans. -/
inductive ResultsSameButSpans : Except EvaluationError Value → Except EvaluationError Value → Prop
    where
  | value {v w : Value} (same : v.withoutSpans = w.withoutSpans) :
      ResultsSameButSpans (.ok v) (.ok w)
  | failure {first second : EvaluationError} (kind : first.kind = second.kind)
      (message : first.message = second.message)
      (same : first.withoutSpans = second.withoutSpans) :
      ResultsSameButSpans (.error first) (.error second)

/-! ### What is written does not depend on spans -/

/-- Expressions in a list are written the same if each of them is. -/
theorem Node.textAll_mapSpansAll {f : Span → Span} {nodes : List Node}
    (texts : ∀ node ∈ nodes, (node.mapSpans f).text = node.text) :
    textAll (mapSpansAll f nodes) = textAll nodes := by
  induction nodes with
  | nil => rfl
  | cons node rest ih =>
    rw [List.forall_mem_cons] at texts
    have later := ih texts.2
    cases rest with
    | nil => exact texts.1
    | cons next others =>
      simp only [mapSpansAll, textAll] at later ⊢
      rw [texts.1, later]

/-- The written form of an expression does not show its spans. -/
theorem Node.text_mapSpans (f : Span → Span) (node : Node) :
    (node.mapSpans f).text = node.text := by
  induction node using Node.induction with
  | atom token span => rfl
  | list children span ih => rw [mapSpans, text, text, textAll_mapSpansAll ih]

theorem Value.text_mapSpans (f : Span → Span) (value : Value) :
    (value.mapSpans f).text = value.text := by
  cases value with
  | token atom => rfl
  | procedure callee =>
    have moved : (callee.mapSpans f).node = callee.node.mapSpans f := by
      simp [Procedure.node, Procedure.mapSpans, Node.mapSpans, Node.mapSpansAll_eq_map,
        Function.comp_def]
    change (callee.mapSpans f).node.text = callee.node.text
    rw [moved, Node.text_mapSpans]
  | void => rfl

theorem DefinitionFault.message_mapSpans (f : Span → Span) (fault : DefinitionFault) :
    (fault.mapSpans f).message = fault.message := by
  cases fault with
  | listParameter node =>
    exact congrArg (fun text => "parameter " ++ text ++ " is a list") (node.text_mapSpans f)
  | unnamedParameter node =>
    exact congrArg (fun text => "parameter " ++ text ++ " is not an identifier")
      (node.text_mapSpans f)
  | definitionTarget node => exact congrArg ("cannot define " ++ ·) (node.text_mapSpans f)
  | assignmentTarget node => exact congrArg ("cannot set! " ++ ·) (node.text_mapSpans f)
  | _ => rfl

/-- The message of a failure does not show its spans. -/
theorem EvaluationError.message_mapSpans (f : Span → Span) (error : EvaluationError) :
    (error.mapSpans f).message = error.message := by
  cases error with
  | malformedDefinition fault span =>
    exact congrArg ("ill-formed definition: " ++ ·) (fault.message_mapSpans f)
  | _ => rfl

/-- The kind of a failure does not depend on its spans. -/
theorem EvaluationError.kind_mapSpans (f : Span → Span) (error : EvaluationError) :
    (error.mapSpans f).kind = error.kind := by
  cases error <;> rfl

/-- Failures that are the same up to spans are of the same kind and have the same message. -/
theorem ResultsSameButSpans.of_error {first second : EvaluationError}
    (same : first.withoutSpans = second.withoutSpans) :
    ResultsSameButSpans (.error first) (.error second) := by
  have kinds := congrArg EvaluationError.kind same
  have messages := congrArg EvaluationError.message same
  simp only [EvaluationError.withoutSpans, EvaluationError.kind_mapSpans,
    EvaluationError.message_mapSpans] at kinds messages
  exact .failure kinds messages same

/-! ### Evaluations that agree up to spans -/

/-- An environment is the same as itself, up to spans as well. -/
theorem Environment.SameButSpans.refl (e : Environment) : e.SameButSpans e where
  builtins _ := rfl
  bindings _ := rfl

theorem Environment.SameButSpans.symm {e f : Environment} (same : e.SameButSpans f) :
    f.SameButSpans e where
  builtins builtin := (same.builtins builtin).symm
  bindings name := (same.bindings name).symm

theorem Environment.SameButSpans.trans {e f g : Environment} (first : e.SameButSpans f)
    (second : f.SameButSpans g) : e.SameButSpans g where
  builtins builtin := (first.builtins builtin).trans (second.builtins builtin)
  bindings name := (first.bindings name).trans (second.bindings name)

/-- Bindings to values that differ in nothing but spans keep environments the same up to spans. -/
theorem Environment.SameButSpans.define {e f : Environment} (same : e.SameButSpans f)
    {name : String} {v w : Value} (values : v.withoutSpans = w.withoutSpans) :
    (e.define name v).SameButSpans (f.define name w) where
  builtins := same.builtins
  bindings other := by
    rw [lookup?_define, lookup?_define]
    by_cases isName : other = name
    · simp only [isName, ↓reduceIte, Option.map_some, values]
    · simpa only [isName, ↓reduceIte] using same.bindings other

/-- Two evaluations in which any two spans are alike. -/
def spanless : Simulation where
  span _ _ := True
  leaf _ := True
  value _ := True
  missing _ := True
  cause _ := True
  environment := Environment.SameButSpans

/-- Expressions that differ in nothing but spans are alike. -/
theorem spanless_nodes {m n : Node} (same : m.withoutSpans = n.withoutSpans) :
    spanless.Nodes m n :=
  Likeness.nodes_of_mapSpans_eq (fun _ _ _ => trivial) same fun _ _ => trivial

/-- Values that differ in nothing but spans are alike. -/
theorem spanless_values {v w : Value} (same : v.withoutSpans = w.withoutSpans) :
    spanless.Values v w :=
  Likeness.values_of_mapSpans_eq (fun _ _ _ => trivial) same (fun _ _ => trivial)
    fun _ _ => trivial

/-- Alike values differ in nothing but spans. -/
theorem withoutSpans_of_spanless {v w : Value} (same : spanless.Values v w) :
    v.withoutSpans = w.withoutSpans :=
  same.mapSpans_eq fun _ _ _ => rfl

/-- Evaluation never looks at a span. -/
theorem spanless_lawful : spanless.Lawful where
  leaf_of_value _ := trivial
  value_of_leaf _ _ := trivial
  sequence := trivial
  abstraction := trivial
  result _ _ _ := trivial
  failure _ _ _ := trivial
  lookup := by
    intro e f name environments _
    have same := environments.bindings name
    generalize e.lookup? name = left, f.lookup? name = right at same ⊢
    cases left with
    | none =>
      rw [Option.map_none, eq_comm, Option.map_eq_none_iff] at same
      rw [same]
      exact .none
    | some value =>
      rw [Option.map_some, eq_comm, Option.map_eq_some_iff] at same
      obtain ⟨other, rfl, equal⟩ := same
      exact .some (spanless_values equal.symm)
  define environments _ _ same _ := environments.define (withoutSpans_of_spanless same)
  assign environments _ _ _ same _ := environments.define (withoutSpans_of_spanless same)
  provides environments _ := environments.builtins _
  missing_of_not_provides _ _ _ := trivial

/-- Alike values are written the same. -/
theorem text_of_spanless {v w : Value} (same : spanless.Values v w) : v.text = w.text := by
  have texts := congrArg Value.text (withoutSpans_of_spanless same)
  rwa [Value.withoutSpans, Value.withoutSpans, Value.text_mapSpans, Value.text_mapSpans] at texts

/-- Programs that agree up to spans, in environments that do, lead to outcomes that do. -/
theorem Runs.sameButSpans {left right : List Node} {e f : Environment}
    {outcome : Outcome (List Value)}
    (nodes : left.map Node.withoutSpans = right.map Node.withoutSpans)
    (environments : e.SameButSpans f) (runs : Runs left e outcome) :
    ∃ other, Runs right f other ∧
      spanless.Results (List.Forall₂ spanless.Values) outcome.1 other.1 ∧
      outcome.2.SameButSpans other.2 := by
  obtain ⟨depth, ran⟩ := runs
  have alike : List.Forall₂ spanless.Nodes left right := by
    rw [← List.forall₂_eq_eq_eq, List.forall₂_map_left_iff, List.forall₂_map_right_iff] at nodes
    exact nodes.imp fun _ _ => spanless_nodes
  obtain ⟨other, ranOther, related⟩ :=
    ((spanless_lawful.evaluate depth).values alike).outcome environments ran
  exact ⟨other, ⟨depth, ranOther⟩, related⟩

/-- A program leaves the same values when it is moved, up to spans, also in an environment with
other spans. -/
theorem Runs.of_moved {g : Span → Span} {program : List Node} {e f after : Environment}
    {values : List Value} (environments : e.SameButSpans f)
    (runs : Runs (program.map (Node.mapSpans g)) e (.ok values, after)) :
    ∃ others last, Runs program f (.ok others, last) ∧
      others.map Value.text = values.map Value.text ∧ after.SameButSpans last := by
  have nodes : (program.map (Node.mapSpans g)).map Node.withoutSpans =
      program.map Node.withoutSpans := by
    rw [List.map_map]
    exact List.map_congr_left fun node _ =>
      node.mapSpans_mapSpans (g := fun _ => .nowhere) fun _ => rfl
  obtain ⟨⟨result, last⟩, ranOther, results, environmentsAfter⟩ :=
    runs.sameButSpans nodes environments
  cases results with
  | ok alike =>
    refine ⟨_, last, ranOther, ?_, environmentsAfter⟩
    rw [← List.forall₂_eq_eq_eq, List.forall₂_map_left_iff, List.forall₂_map_right_iff]
    exact alike.flip.imp fun _ _ same => (text_of_spanless same).symm

/-- **Evaluation ignores spans.** Where one of two evaluations that agree up to spans comes
to an end, so does the other, with the same result up to spans, and in the same environment
up to spans. -/
theorem evaluation_ignores_spans {m n : Node} {e f : Environment} {outcome : Outcome Value}
    (nodes : m.withoutSpans = n.withoutSpans) (environments : e.SameButSpans f)
    (evaluates : Evaluates m e outcome) :
    ∃ other, Evaluates n f other ∧ ResultsSameButSpans outcome.1 other.1 ∧
      outcome.2.SameButSpans other.2 := by
  obtain ⟨other, evaluatesOther, results, after⟩ :=
    spanless_lawful.evaluates (spanless_nodes nodes) environments evaluates
  refine ⟨other, evaluatesOther, ?_, after⟩
  obtain ⟨result, last⟩ := outcome
  obtain ⟨otherResult, otherLast⟩ := other
  cases results with
  | ok values => exact .value (withoutSpans_of_spanless values)
  | error errors => exact .of_error (errors.mapSpans_eq fun _ _ _ => rfl)

/-- A procedure that assigns to a name and then fails, written in two places, in two environments
that list their bindings in different orders. -/
theorem evaluation_ignores_spans_in_a_failing_call :
    let callee (a : Span) : Value := .procedure {
      parameters := [.identifier "x"]
      body := .list [.atom (.keyword (.special .sequence)) a,
        .list [.atom (.keyword (.special .assignment)) a, .atom (.identifier "y") a,
          .atom (.identifier "x") a] a,
        .list [.atom (.keyword (.special .definition)) a, .atom (.identifier "x") a,
          .atom (.boolean true) a] a] a
      span := a }
    let call (a : Span) : Node := .list [.atom (.identifier "f") a, .atom (.boolean false) a] a
    let truth : Value := .token (.boolean true)
    let e := (Environment.standard.define "f" (callee ⟨0, 9⟩)).define "y" truth
    let f := (Environment.standard.define "y" truth).define "f" (callee ⟨3, 4⟩)
    let cause : EvaluationError :=
      .malformedDefinition (.definitionTarget (.atom (.boolean false) ⟨0, 9⟩)) ⟨0, 9⟩
    let after := e.define "y" (.token (.boolean false))
    (call ⟨5, 8⟩).withoutSpans = (call ⟨1, 2⟩).withoutSpans ∧ e.SameButSpans f ∧
    Evaluates (call ⟨5, 8⟩) e (.error cause, after) ∧
    ∃ other, Evaluates (call ⟨1, 2⟩) f other ∧ ResultsSameButSpans (.error cause) other.1 ∧
      after.SameButSpans other.2 := by
  intro callee call truth e f cause after
  have nodes : (call ⟨5, 8⟩).withoutSpans = (call ⟨1, 2⟩).withoutSpans := rfl
  have environments : e.SameButSpans f := by
    refine ⟨fun _ => rfl, fun name => ?_⟩
    simp only [e, f, Environment.lookup?_define]
    by_cases isF : name = "f"
    · rw [isF]
      rfl
    · simp only [isF, ↓reduceIte]
  have evaluates : Evaluates (call ⟨5, 8⟩) e (.error cause, after) := ⟨4, rfl⟩
  exact ⟨nodes, environments, evaluates, evaluation_ignores_spans nodes environments evaluates⟩

end SubstLisp
