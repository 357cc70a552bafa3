import SubstLisp.Proofs.Evaluation.BuiltinResults
import SubstLisp.Proofs.Evaluation.Lockstep
import SubstLisp.Proofs.Evaluation.MovedSpans
import SubstLisp.Proofs.Reading.Classification
import SubstLisp.Proofs.Reading.Leaves
import SubstLisp.Proofs.Session.History

/-! # Sessions stay hygienic

Whatever texts a session interprets, it binds only texts that read as names, to values made of well
formed atoms, and it keeps its builtin procedures (`SubstLisp.session_hygienic`). So a look-up need
not ask again what a name denotes, and no builtin procedure is ever missing.

The invariant is about single evaluations. It is proved as a likeness of every evaluation with
itself.
-/

namespace SubstLisp

/-- A value that a name may be bound to: all its atoms are well formed, and it is not a name. -/
structure Value.Hygienic (value : Value) : Prop where
  notVoid : value ≠ .void
  notIdentifier : ∀ name, value ≠ .token (.identifier name)
  leaves : ∀ token ∈ value.leaves, token.WellFormed

/-- All builtin procedures are there, and names that read as such are bound to hygienic values. -/
structure Environment.Hygienic (environment : Environment) : Prop where
  builtins : environment.builtins = Builtin.all
  names : ∀ name value, (name, value) ∈ environment.bindings → IsName name
  values : ∀ name value, (name, value) ∈ environment.bindings → value.Hygienic

/-- An insertion adds no binding but the inserted one. -/
theorem Bindings.mem_insert {name other : String} {value bound : Value} {bindings : Bindings}
    (member : (other, bound) ∈ bindings.insert name value) :
    (other = name ∧ bound = value) ∨ (other, bound) ∈ bindings := by
  induction bindings with
  | nil => simpa [insert] using member
  | cons entry rest ih =>
    simp only [insert] at member
    split at member
    · rcases List.mem_cons.mp member with same | inside
      · exact .inl (Prod.mk.inj same)
      · exact .inr (List.mem_cons_of_mem _ inside)
    · rcases List.mem_cons.mp member with same | inside
      · exact .inr (same ▸ List.mem_cons_self)
      · rcases ih inside with isNew | earlier
        · exact .inl isNew
        · exact .inr (List.mem_cons_of_mem _ earlier)

theorem Bindings.mem_of_lookup {name : String} {value : Value} {bindings : Bindings}
    (found : bindings.lookup name = some value) : (name, value) ∈ bindings := by
  rw [List.lookup_eq_some_iff] at found
  obtain ⟨before, after, rfl, -⟩ := found
  simp

namespace Environment

/-- The standard environment provides all builtins and binds nothing. -/
theorem hygienic_standard : Environment.standard.Hygienic where
  builtins := rfl
  names _ _ member := by cases member
  values _ _ member := by cases member

theorem Hygienic.provides {environment : Environment} (hygienic : environment.Hygienic)
    (builtin : Builtin) : environment.provides builtin = true := by
  rw [Environment.provides, hygienic.builtins]
  cases builtin <;> rfl

/-- A definition of a proper name with a proper value keeps an environment hygienic. -/
theorem Hygienic.define {environment : Environment} (hygienic : environment.Hygienic)
    {name : String} (isName : IsName name) {value : Value} (bindable : value.Hygienic) :
    (environment.define name value).Hygienic where
  builtins := hygienic.builtins
  names other bound member := by
    rcases Bindings.mem_insert member with ⟨rfl, -⟩ | earlier
    · exact isName
    · exact hygienic.names other bound earlier
  values other bound member := by
    rcases Bindings.mem_insert member with ⟨-, rfl⟩ | earlier
    · exact bindable
    · exact hygienic.values other bound earlier

end Environment

/-- An evaluation beside itself that meets only well formed atoms. -/
def hygiene : Simulation where
  span := Eq
  leaf := Token.WellFormed
  value token := token.WellFormed ∧ ∀ name, token ≠ .identifier name
  missing _ := False
  cause _ := True
  environment e f := e = f ∧ e.Hygienic

theorem hygiene_lawfulLikeness : hygiene.toLikeness.Lawful where
  leaf_of_value allowed := allowed.1
  value_of_leaf allowed notIdentifier := ⟨allowed, notIdentifier⟩
  sequence := trivial
  abstraction := trivial
  result := by
    intro builtin arguments token _ allowed applied
    have canonical : ∀ number, .token (.number number) ∈ arguments → number.Canonical :=
      fun number member => (allowed _ member).1
    rcases Builtin.apply_eq_ok builtin.keeps_canonical canonical applied with
      ⟨number, rfl, kept⟩ | ⟨value, rfl⟩
    · exact ⟨kept, fun _ => Token.noConfusion⟩
    · exact ⟨trivial, fun _ => Token.noConfusion⟩
  failure _ _ _ := trivial

/-- The values that evaluations meet are hygienic, unless they are void. -/
theorem hygienic_of_values {v w : Value} (same : hygiene.Values v w) (notVoid : v.isVoid = false) :
    v.Hygienic where
  notVoid := by
    intro isVoid
    rw [isVoid] at notVoid
    cases notVoid
  notIdentifier := by
    rintro name rfl
    cases same with
    | token allowed => exact allowed.2 name rfl
  leaves := same.leaves hygiene_lawfulLikeness

theorem hygienic_of_mem {left right : List Value} (same : List.Forall₂ hygiene.Values left right)
    (notVoid : ∀ value ∈ left, value.isVoid = false) : ∀ value ∈ left, value.Hygienic := by
  induction same with
  | nil => simp
  | cons head _ ih =>
    rw [List.forall_mem_cons] at notVoid ⊢
    exact ⟨hygienic_of_values head notVoid.1, ih notVoid.2⟩

theorem hygiene_bind {e f : Environment} {name : String} {v w : Value}
    (environments : hygiene.environment e f) (isName : IsName name) (same : hygiene.Values v w)
    (notVoid : v.isVoid = false) : hygiene.environment (e.define name v) (f.define name w) := by
  obtain ⟨rfl, hygienic⟩ := environments
  obtain rfl := same.eq fun _ _ => Iff.rfl
  exact ⟨rfl, hygienic.define isName (hygienic_of_values same notVoid)⟩

/-- Evaluation keeps environments hygienic. -/
theorem hygiene_lawful : hygiene.Lawful where
  toLawful := hygiene_lawfulLikeness
  lookup := by
    intro e f name environments _
    obtain ⟨rfl, hygienic⟩ := environments
    cases found : e.lookup? name with
    | none => exact .none
    | some value =>
      have bound := hygienic.values name value (Bindings.mem_of_lookup found)
      refine .some (Likeness.values_self (fun _ _ => Iff.rfl) ?_ bound.leaves)
      rintro token rfl
      exact ⟨bound.leaves token (List.mem_singleton.mpr rfl),
        fun other same => bound.notIdentifier other (congrArg _ same)⟩
  define environments _ isName same notVoid := hygiene_bind environments isName same notVoid
  assign environments _ isName _ same notVoid := hygiene_bind environments isName same notVoid
  provides := by
    intro e f builtin environments _
    rw [environments.1]
  missing_of_not_provides := by
    intro e f builtin environments _ missing
    rw [environments.2.provides builtin] at missing
    cases missing

/-- What came of a text: hygienic values, or a failure that is not for want of a
builtin procedure. -/
structure HygienicResult (result : Except Failure (List Value)) : Prop where
  values : ∀ values, result = .ok values → ∀ value ∈ values, value.Hygienic
  provided : ∀ builtin span,
    result ≠ .error (.evaluation (.notCallable (.missing builtin) span))

/-- Interpreting a text keeps an environment hygienic, whether or not it fails. -/
theorem Interprets.hygienic {source : String} {environment : Environment}
    {interpretation : Interpretation} (interprets : Interprets source environment interpretation)
    (hygienic : environment.Hygienic) :
    HygienicResult interpretation.1 ∧ interpretation.2.Hygienic := by
  cases read : readProgram source with
  | error cause =>
    obtain ⟨depth, ran⟩ := interprets
    rw [interpret, read] at ran
    cases ran
    refine ⟨⟨?_, ?_⟩, hygienic⟩
    · intro values same
      cases same
    · intro builtin span same
      cases same
  | ok program =>
    rw [interprets_iff_runs read] at interprets
    obtain ⟨⟨result, after⟩, ⟨depth, evaluated⟩, rfl⟩ := interprets
    have leaves := leaves_readProgram (fun text _ _ => Token.classify_wellFormed text) read
    have nodes : List.Forall₂ hygiene.Nodes program program := by
      rw [List.forall₂_same]
      exact fun node member => Likeness.nodes_self (fun _ _ => Iff.rfl) (leaves node member)
    have together := (hygiene_lawful.evaluate depth).values nodes
    obtain ⟨⟨other, otherAfter⟩, -, results, -, kept⟩ :=
      together.outcome ⟨rfl, hygienic⟩ evaluated
    refine ⟨⟨?_, ?_⟩, kept⟩
    · intro values same
      cases results with
      | error _ => cases same
      | ok alike =>
        cases same
        exact hygienic_of_mem alike (Evaluator.not_void_of_values evaluated)
    · intro builtin span same
      cases results with
      | ok _ => cases same
      | error alike =>
        cases same
        cases alike with
        | notCallable missing _ => exact missing builtin rfl

/-- **Sessions are hygienic.** Whatever a session has interpreted, its environment is hygienic, and
so is every result on the way. -/
theorem session_hygienic {history : List (String × Except Failure (List Value))}
    {environment : Environment} (session : Session history environment) :
    environment.Hygienic ∧ ∀ entry ∈ history, HygienicResult entry.2 := by
  induction session with
  | start => exact ⟨Environment.hygienic_standard, by simp⟩
  | @next history environment source interpretation earlier interprets ih =>
    obtain ⟨before, results⟩ := ih
    obtain ⟨result, after⟩ := interprets.hygienic before
    refine ⟨after, ?_⟩
    intro entry member
    rcases List.mem_append.mp member with old | isNew
    · exact results entry old
    · rw [List.mem_singleton.mp isNew]
      exact result

/-- A text that binds a procedure before it fails, and then one that looks the procedure up. -/
theorem session_hygienic_past_a_failure :
    let identity : Value := .procedure {
      parameters := [.identifier "x"]
      body := .atom (.identifier "x") ⟨15, 16⟩
      span := ⟨0, 17⟩ }
    let history : List (String × Except Failure (List Value)) :=
      [("(define (id x) x) (set! y id)", .error (.evaluation (.unbound "y" ⟨24, 25⟩))),
        ("id", .ok [identity])]
    let environment := Environment.standard.define "id" identity
    Session history environment ∧ environment.Hygienic ∧
      ∀ entry ∈ history, HygienicResult entry.2 := by
  intro identity history environment
  have failed : Interprets "(define (id x) x) (set! y id)" .standard
      (.error (.evaluation (.unbound "y" ⟨24, 25⟩)), environment) := by
    have scanned : lexemes "(define (id x) x) (set! y id)" =
        [⟨.opener, ⟨0, 1⟩⟩, ⟨.atom "define", ⟨1, 7⟩⟩, ⟨.opener, ⟨8, 9⟩⟩, ⟨.atom "id", ⟨9, 11⟩⟩,
          ⟨.atom "x", ⟨12, 13⟩⟩, ⟨.closer, ⟨13, 14⟩⟩, ⟨.atom "x", ⟨15, 16⟩⟩,
          ⟨.closer, ⟨16, 17⟩⟩, ⟨.opener, ⟨18, 19⟩⟩, ⟨.atom "set!", ⟨19, 23⟩⟩,
          ⟨.atom "y", ⟨24, 25⟩⟩, ⟨.atom "id", ⟨26, 28⟩⟩, ⟨.closer, ⟨28, 29⟩⟩] := rfl
    refine ⟨2, ?_⟩
    rw [interpret]
    simp only [readProgram, scanned, Reader.all, Reader.ofLexemes, readAll, readInside]
    rfl
  have found : Interprets "id" environment (.ok [identity], environment) := by
    have scanned : lexemes "id" = [⟨.atom "id", ⟨0, 2⟩⟩] := rfl
    refine ⟨1, ?_⟩
    rw [interpret]
    simp only [readProgram, scanned, Reader.all, Reader.ofLexemes, readAll, readInside]
    rfl
  have session : Session history environment := (Session.start.next failed).next found
  exact ⟨session, session_hygienic session⟩

end SubstLisp
