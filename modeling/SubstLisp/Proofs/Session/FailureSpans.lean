import SubstLisp.Proofs.Evaluation.Provenance
import SubstLisp.Proofs.Session.History

/-! # Where failures are reported

A failure is reported at a place of a text that the session has seen: at a lexeme of the text that
cannot be read, or else at an expression in the program of this text or of an earlier one
(`SubstLisp.failure_points_into_a_seen_text`). The latter happens when a procedure that an earlier
text has bound fails.
-/

namespace SubstLisp

/-- The span is that of an expression in the program of one of the texts. -/
def SeenIn (texts : List String) (span : Span) : Prop :=
  ∃ text ∈ texts, ∃ program, readProgram text = .ok program ∧
    ∃ node ∈ program, ∃ part ∈ node.parts, part.span = span

section Texts

variable {texts : List String}

/-- Interpreting one of the texts brings no other spans along, whether or not it fails. -/
theorem Interprets.spans_seen {source : String} (member : source ∈ texts)
    {environment : Environment} {interpretation : Interpretation}
    (binds : (provenance (SeenIn texts)).Binds environment)
    (interprets : Interprets source environment interpretation) :
    (∀ cause, interpretation.1 = .error (.evaluation cause) → SeenIn texts cause.span) ∧
      (provenance (SeenIn texts)).Binds interpretation.2 := by
  cases read : readProgram source with
  | error reason =>
    obtain rfl := interprets.of_readProgram_error read
    refine ⟨?_, binds⟩
    intro cause failed
    cases failed
  | ok program =>
    obtain ⟨⟨result, after⟩, runs, rfl⟩ := (interprets_iff_runs read).mp interprets
    have spans : ∀ node ∈ program, ∀ part ∈ node.parts, SeenIn texts part.span :=
      fun node inside part within =>
        ⟨source, member, program, read, node, inside, part, within, rfl⟩
    obtain ⟨errors, kept⟩ := runs.spans_seen spans binds
    refine ⟨?_, kept⟩
    intro cause failed
    cases result with
    | ok values => cases failed
    | error reason =>
      cases failed
      exact errors _ rfl

/-- All spans in what a session has bound are from the texts that it has interpreted. -/
theorem Session.spans_seen {history : List (String × Except Failure (List Value))}
    {environment : Environment} (session : Session history environment)
    (members : ∀ entry ∈ history, entry.1 ∈ texts) :
    (provenance (SeenIn texts)).Binds environment := by
  induction session with
  | start => exact Likeness.binds_standard
  | next earlier interprets ih =>
    rw [List.forall_mem_append, List.forall_mem_singleton] at members
    exact (interprets.spans_seen members.2 (ih members.1)).2

end Texts

/-- **Failures point into texts that have been seen.** If a session cannot read a text, the failure
has the span of a lexeme of this text. If it cannot evaluate it, the failure has the span of an
expression in the program of this text or of an earlier one. So in a new session the span takes up
some characters of the text. -/
theorem failure_points_into_a_seen_text {earlier : List (String × Except Failure (List Value))}
    {environment after : Environment} {source : String} {failure : Failure}
    (session : Session earlier environment)
    (interprets : Interprets source environment (.error failure, after)) :
    (∀ cause, failure = .reading cause → ∃ lexeme ∈ lexemes source, lexeme.span = failure.span) ∧
    (∀ cause, failure = .evaluation cause →
      SeenIn (earlier.map Prod.fst ++ [source]) failure.span) ∧
    (earlier = [] → failure.span.LiesIn source) := by
  have unread : ∀ cause, failure = .reading cause →
      ∃ lexeme ∈ lexemes source, lexeme.span = failure.span := by
    rintro cause rfl
    cases read : readProgram source with
    | error reason =>
      cases interprets.of_readProgram_error read
      exact exists_lexeme_of_readProgram_eq_error read
    | ok program =>
      obtain ⟨⟨result, left⟩, -, same⟩ := (interprets_iff_runs read).mp interprets
      cases result <;> cases same
  have unevaluated : ∀ cause, failure = .evaluation cause →
      SeenIn (earlier.map Prod.fst ++ [source]) failure.span := by
    rintro cause rfl
    have binds : (provenance (SeenIn (earlier.map Prod.fst ++ [source]))).Binds environment :=
      session.spans_seen fun entry member =>
        List.mem_append_left _ (List.mem_map_of_mem member)
    exact (interprets.spans_seen (by simp) binds).1 cause rfl
  refine ⟨unread, unevaluated, ?_⟩
  rintro rfl
  cases failure with
  | reading cause =>
    obtain ⟨lexeme, member, same⟩ := unread cause rfl
    exact same ▸ liesIn_of_mem_lexemes member
  | evaluation cause =>
    obtain ⟨text, member, program, read, node, inside, part, within, same⟩ := unevaluated cause rfl
    obtain rfl := List.mem_singleton.mp member
    exact same ▸ liesIn_of_readProgram read node inside part within

/-- A procedure that an earlier text has bound fails. The text that calls it is shorter than the
place where the failure is reported. -/
theorem failure_points_into_a_seen_text_before_the_last :
    let callee : Value := .procedure {
      parameters := []
      body := .list [.atom (.identifier "g") ⟨13, 14⟩] ⟨12, 15⟩
      span := ⟨0, 16⟩ }
    let environment := Environment.standard.define "f" callee
    let failure : Failure := .evaluation (.unbound "g" ⟨13, 14⟩)
    Session [("(define (f) (g))", .ok [])] environment ∧
      Interprets "(f)" environment (.error failure, environment) ∧
      SeenIn ["(define (f) (g))", "(f)"] ⟨13, 14⟩ := by
  intro callee environment failure
  have defines : Interprets "(define (f) (g))" .standard (.ok [], environment) := by
    have scanned : lexemes "(define (f) (g))" =
        [⟨.opener, ⟨0, 1⟩⟩, ⟨.atom "define", ⟨1, 7⟩⟩, ⟨.opener, ⟨8, 9⟩⟩, ⟨.atom "f", ⟨9, 10⟩⟩,
          ⟨.closer, ⟨10, 11⟩⟩, ⟨.opener, ⟨12, 13⟩⟩, ⟨.atom "g", ⟨13, 14⟩⟩, ⟨.closer, ⟨14, 15⟩⟩,
          ⟨.closer, ⟨15, 16⟩⟩] := rfl
    refine ⟨2, ?_⟩
    rw [interpret]
    simp only [readProgram, scanned, Reader.all, Reader.ofLexemes, readAll, readInside]
    rfl
  have fails : Interprets "(f)" environment (.error failure, environment) := by
    have scanned : lexemes "(f)" =
        [⟨.opener, ⟨0, 1⟩⟩, ⟨.atom "f", ⟨1, 2⟩⟩, ⟨.closer, ⟨2, 3⟩⟩] := rfl
    refine ⟨4, ?_⟩
    rw [interpret]
    simp only [readProgram, scanned, Reader.all, Reader.ofLexemes, readAll, readInside]
    rfl
  have session : Session [("(define (f) (g))", .ok [])] environment := Session.start.next defines
  exact ⟨session, fails, (failure_points_into_a_seen_text session fails).2.1 _ rfl⟩

end SubstLisp
