import SubstLisp.Evaluation.Computation

/-! # Moving the spans of expressions and values

A function on spans acts on everything that remembers where it was written, from expressions up to
the outcomes of evaluations.
-/

namespace SubstLisp

mutual
/-- The same expression with other spans. -/
def Node.mapSpans (f : Span → Span) : Node → Node
  | .atom token span => .atom token (f span)
  | .list children span => .list (mapSpansAll f children) (f span)
/-- The same expressions with other spans. -/
def Node.mapSpansAll (f : Span → Span) : List Node → List Node
  | [] => []
  | node :: rest => node.mapSpans f :: mapSpansAll f rest
end

def Procedure.mapSpans (f : Span → Span) (procedure : Procedure) : Procedure where
  parameters := procedure.parameters
  body := procedure.body.mapSpans f
  span := f procedure.span

def Value.mapSpans (f : Span → Span) : Value → Value
  | .token atom => .token atom
  | .procedure callee => .procedure (callee.mapSpans f)
  | .void => .void

def DefinitionFault.mapSpans (f : Span → Span) : DefinitionFault → DefinitionFault
  | .listParameter parameter => .listParameter (parameter.mapSpans f)
  | .unnamedParameter parameter => .unnamedParameter (parameter.mapSpans f)
  | .definitionTarget target => .definitionTarget (target.mapSpans f)
  | .assignmentTarget target => .assignmentTarget (target.mapSpans f)
  | .abstractionShape => .abstractionShape
  | .definitionShape => .definitionShape
  | .unnamedProcedure => .unnamedProcedure
  | .procedureWithoutBody => .procedureWithoutBody
  | .assignmentShape => .assignmentShape
  | .noValue => .noValue

def EvaluationError.mapSpans (f : Span → Span) : EvaluationError → EvaluationError
  | .unbound name span => .unbound name (f span)
  | .malformedDefinition fault span => .malformedDefinition (fault.mapSpans f) (f span)
  | .malformedConditional span => .malformedConditional (f span)
  | .argumentCount expected found span => .argumentCount expected found (f span)
  | .notCallable operator span => .notCallable operator (f span)
  | .builtin procedure cause span => .builtin procedure cause (f span)

def Environment.mapSpans (f : Span → Span) (environment : Environment) : Environment where
  bindings := environment.bindings.map fun (name, value) => (name, value.mapSpans f)
  builtins := environment.builtins

/-- The same outcome of a program with other spans. -/
def Outcome.mapSpans (f : Span → Span) : Outcome (List Value) → Outcome (List Value)
  | (.ok values, environment) => (.ok (values.map (·.mapSpans f)), environment.mapSpans f)
  | (.error cause, environment) => (.error (cause.mapSpans f), environment.mapSpans f)

/-- The spans of several expressions are moved one expression after the other. -/
theorem Node.mapSpansAll_eq_map (f : Span → Span) (nodes : List Node) :
    mapSpansAll f nodes = nodes.map (mapSpans f) := by
  induction nodes with
  | nil => rfl
  | cons node rest ih => simp only [mapSpansAll, ih, List.map_cons]

/-- An expression with its spans left where they are is the same. -/
theorem Node.mapSpans_id (node : Node) : node.mapSpans id = node := by
  induction node using Node.induction with
  | atom token span => rfl
  | list children span ih =>
    rw [mapSpans, mapSpansAll_eq_map, List.map_congr_left ih, List.map_id']
    rfl

theorem Procedure.mapSpans_id (procedure : Procedure) : procedure.mapSpans id = procedure := by
  simp only [mapSpans, Node.mapSpans_id, id_eq]

theorem Value.mapSpans_id (value : Value) : value.mapSpans id = value := by
  cases value with
  | procedure callee => rw [mapSpans, callee.mapSpans_id]
  | _ => rfl

theorem DefinitionFault.mapSpans_id (fault : DefinitionFault) : fault.mapSpans id = fault := by
  cases fault <;> simp only [mapSpans, Node.mapSpans_id]

theorem EvaluationError.mapSpans_id (error : EvaluationError) : error.mapSpans id = error := by
  cases error <;> simp only [mapSpans, DefinitionFault.mapSpans_id, id_eq]

/-! ### Moving twice -/

section Twice

variable {f g h : Span → Span} (twice : ∀ span, g (f span) = h span)
include twice

/-- To move the spans of an expression twice is to move them once. -/
theorem Node.mapSpans_mapSpans (node : Node) : (node.mapSpans f).mapSpans g = node.mapSpans h := by
  induction node using Node.induction with
  | atom token span => rw [mapSpans, mapSpans, mapSpans, twice]
  | list children span ih =>
    rw [mapSpans, mapSpans, mapSpans, mapSpansAll_eq_map, mapSpansAll_eq_map, mapSpansAll_eq_map,
      List.map_map, twice]
    congr 1
    exact List.map_congr_left ih

theorem Procedure.mapSpans_mapSpans (procedure : Procedure) :
    (procedure.mapSpans f).mapSpans g = procedure.mapSpans h := by
  simp only [mapSpans, procedure.body.mapSpans_mapSpans twice, twice]

theorem Value.mapSpans_mapSpans (value : Value) :
    (value.mapSpans f).mapSpans g = value.mapSpans h := by
  cases value with
  | procedure callee => rw [mapSpans, mapSpans, mapSpans, callee.mapSpans_mapSpans twice]
  | _ => rfl

/-- To move all spans in an environment twice is to move them once. -/
theorem Environment.mapSpans_mapSpans (environment : Environment) :
    (environment.mapSpans f).mapSpans g = environment.mapSpans h := by
  simp only [mapSpans, List.map_map, Function.comp_def, Value.mapSpans_mapSpans twice]

end Twice

namespace Environment

/-- An environment with all spans left where they are is the same. -/
theorem mapSpans_id (environment : Environment) : environment.mapSpans id = environment := by
  simp only [mapSpans, Value.mapSpans_id, List.map_id']

/-- A name is bound to the value it was bound to, with its spans moved. -/
theorem lookup?_mapSpans (f : Span → Span) (environment : Environment) (name : String) :
    (environment.mapSpans f).lookup? name = (environment.lookup? name).map (Value.mapSpans f) := by
  obtain ⟨bindings, builtins⟩ := environment
  simp only [lookup?, mapSpans]
  induction bindings with
  | nil => rfl
  | cons entry rest ih =>
    obtain ⟨bound, value⟩ := entry
    rw [List.map_cons, List.lookup_cons, List.lookup_cons, ih]
    by_cases same : name == bound
    · simp only [same, Option.map_some]
    · simp only [same]

/-- It does not matter whether spans are moved before or after a definition. -/
theorem define_mapSpans (f : Span → Span) (environment : Environment) (name : String)
    (value : Value) :
    (environment.define name value).mapSpans f =
      (environment.mapSpans f).define name (value.mapSpans f) := by
  obtain ⟨bindings, builtins⟩ := environment
  simp only [define, mapSpans]
  congr 1
  induction bindings with
  | nil => rfl
  | cons entry rest ih =>
    obtain ⟨bound, earlier⟩ := entry
    rw [Bindings.insert, List.map_cons, Bindings.insert]
    by_cases same : bound = name
    · rw [if_pos same, if_pos same, List.map_cons]
    · rw [if_neg same, if_neg same, List.map_cons, ih]

end Environment

end SubstLisp
