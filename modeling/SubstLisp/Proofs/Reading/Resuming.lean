import SubstLisp.Prompt.Marks
import SubstLisp.Proofs.Reading.Balance

/-! # Reading on after errors

A reader can be asked for the next expression after an error. It then finds every stray closer, not
only the first: these are the ones that the prompt marks. An opener that is never closed comes last,
since it uses up the text. A program is what is read up to the first error
(`SubstLisp.resumed_reading`).
-/

namespace SubstLisp

/-- What reading finds that goes on after every error, until the lexemes are used up. -/
def resumeAll (stop : Nat) : List Lexeme → List (Except ReadError Node)
  | [] => []
  | lexeme :: rest =>
    let reading := readInside stop [] (lexeme :: rest)
    reading.result :: resumeAll stop reading.rest
termination_by lexemes => lexemes.length
decreasing_by
  have shorter := length_rest_readInside stop [] (lexeme :: rest)
  simp only [List.length_cons] at *
  omega

section Lexemes

variable {stop : Nat} {enclosing : List OpenList} {lexemes : List Lexeme}

/-- Every result takes at least one lexeme. -/
theorem length_resumeAll_le (stop : Nat) (lexemes : List Lexeme) :
    (resumeAll stop lexemes).length ≤ lexemes.length := by
  fun_induction resumeAll stop lexemes with
  | case1 => exact Nat.le_refl 0
  | case2 lexeme rest reading ih =>
    have shorter : reading.rest.length ≤ (lexeme :: rest).length - 1 :=
      length_rest_readInside stop [] (lexeme :: rest)
    simp only [List.length_cons] at shorter ⊢
    omega

/-- Resumed reading never ends where an expression is expected. -/
theorem endOfText_not_mem_resumeAll (span : Span) :
    Except.error (ReadError.endOfText span) ∉ resumeAll stop lexemes := by
  fun_induction resumeAll stop lexemes with
  | case1 => exact List.not_mem_nil
  | case2 lexeme rest reading ih =>
    have goesOn : reading.result ≠ .error (.endOfText span) :=
      readInside_ne_endOfText (.inl (List.cons_ne_nil _ _)) span
    rw [List.mem_cons, not_or]
    exact ⟨goesOn.symm, ih⟩

/-- The first result is that of reading one expression, and it decides whether the text is read on
as a program. -/
theorem resumeAll_eq_cons {result : Except ReadError Node} {later : List (Except ReadError Node)}
    (split : resumeAll stop lexemes = result :: later) :
    ∃ rest, readInside stop [] lexemes = ⟨result, rest⟩ ∧ resumeAll stop rest = later ∧
      readAll stop lexemes = result.bind fun node => (readAll stop rest).map (node :: ·) := by
  cases lexemes with
  | nil => simp [resumeAll] at split
  | cons lexeme rest =>
    rw [resumeAll] at split
    obtain ⟨rfl, rfl⟩ := List.cons.inj split
    refine ⟨_, rfl, rfl, ?_⟩
    rw [readAll]
    cases (readInside stop [] (lexeme :: rest)).result with
    | error cause => rfl
    | ok node => cases readAll stop (readInside stop [] (lexeme :: rest)).rest <;> rfl

/-- One result after the other is found, and then nothing but the end of the text. -/
theorem Reader.take_eq {count more : Nat} (le : count ≤ more) :
    (Reader.mk lexemes stop).take count =
      (resumeAll stop lexemes ++
        List.replicate more (Except.error (ReadError.endOfText ⟨stop, stop⟩))).take count := by
  induction count generalizing lexemes more with
  | zero => rw [Reader.take, List.take_zero]
  | succ count ih =>
    cases lexemes with
    | nil =>
      obtain ⟨others, rfl⟩ := Nat.exists_eq_add_of_le' (Nat.le_of_succ_le le)
      have later := @ih [] (count + others) (Nat.le_add_right _ _)
      rw [resumeAll, List.nil_append, List.take_replicate] at later ⊢
      rw [Nat.min_eq_left (Nat.le_add_right _ _)] at later
      rw [Nat.min_eq_left le, List.replicate_succ, ← later]
      rfl
    | cons lexeme rest =>
      rw [resumeAll, List.cons_append, List.take_succ_cons, ← ih (Nat.le_of_succ_le le)]
      rfl

/-! ### Stray closers -/

/-- Where the closers start that close nothing, behind `depth` open lists. -/
def straysFrom : (depth : Nat) → List Lexeme → List Nat
  | _, [] => []
  | depth, ⟨.opener, _⟩ :: rest => straysFrom (depth + 1) rest
  | 0, ⟨.closer, span⟩ :: rest => span.start :: straysFrom 0 rest
  | outer + 1, ⟨.closer, _⟩ :: rest => straysFrom outer rest
  | depth, ⟨.atom _, _⟩ :: rest => straysFrom depth rest

/-- Where the stray closer starts that is reported, if one is. -/
def strayStart? : Except ReadError Node → Option Nat
  | .error (.unexpectedCloser span) => some span.start
  | _ => none

/-- The marks of stray closers depend on how many lists are open, and on nothing else. -/
theorem strays_marksFrom (cursor : Nat) (opened : List Nat) (pair : Option (Nat × Nat))
    (lexemes : List Lexeme) :
    (marksFrom cursor opened pair lexemes).strays = straysFrom opened.length lexemes := by
  fun_induction marksFrom cursor opened pair lexemes with
  | case1 => rfl
  | case2 opened pair span rest ih => exact ih
  | case3 pair span rest marks ih => exact congrArg _ ih
  | case4 pair span rest opener outer touched ih => exact ih
  | case5 opened pair text span rest ih =>
    cases opened with
    | nil => exact ih
    | cons => exact ih

/-- A stray closer costs this one lexeme. Whatever else is read has none in it. -/
theorem straysFrom_readInside :
    straysFrom enclosing.length lexemes =
      (strayStart? (readInside stop enclosing lexemes).result).toList ++
        straysFrom 0 (readInside stop enclosing lexemes).rest := by
  fun_induction readInside stop enclosing lexemes with
  | case1 => rfl
  | case2 => rfl
  | case3 enclosing span rest ih => exact ih
  | case4 span rest => rfl
  | case5 span rest outermost => rfl
  | case6 span rest innermost next outer inner ih => exact ih
  | case7 text span rest atom => rfl
  | case8 text span rest atom innermost outer ih => exact ih

/-- Resumed reading meets the stray closers in their order. -/
theorem filterMap_strayStart?_resumeAll (stop : Nat) (lexemes : List Lexeme) :
    (resumeAll stop lexemes).filterMap strayStart? = straysFrom 0 lexemes := by
  fun_induction resumeAll stop lexemes with
  | case1 => rfl
  | case2 lexeme rest reading ih =>
    have split : straysFrom 0 (lexeme :: rest) =
        (strayStart? reading.result).toList ++ straysFrom 0 reading.rest :=
      @straysFrom_readInside stop [] (lexeme :: rest)
    rw [split, ← ih, List.filterMap_cons]
    cases strayStart? reading.result <;> rfl

/-! ### Openers that are never closed -/

/-- An opener that is never closed uses up the text. -/
theorem rest_readInside_of_missingCloser {opener : Span}
    (read : (readInside stop enclosing lexemes).result = .error (.missingCloser opener)) :
    (readInside stop enclosing lexemes).rest = [] := by
  fun_induction readInside stop enclosing lexemes with
  | case1 => rfl
  | case2 => rfl
  | case3 enclosing span rest ih => exact ih read
  | case4 span rest => cases read
  | case5 span rest outermost => cases read
  | case6 span rest innermost next outer inner ih => exact ih read
  | case7 text span rest atom => cases read
  | case8 text span rest atom innermost outer ih => exact ih read

/-- An opener without a closer is the last error, as nothing follows it. -/
theorem eq_nil_of_resumeAll_eq_append {before after : List (Except ReadError Node)} {opener : Span}
    (split : resumeAll stop lexemes = before ++ .error (.missingCloser opener) :: after) :
    after = [] := by
  induction before generalizing lexemes with
  | nil =>
    obtain ⟨rest, read, rfl, -⟩ := resumeAll_eq_cons split
    have usedUp : (readInside stop [] lexemes).rest = [] :=
      rest_readInside_of_missingCloser (by rw [read])
    have nothing : rest = [] := by rwa [read] at usedUp
    rw [nothing, resumeAll]
  | cons result before ih =>
    obtain ⟨rest, -, others, -⟩ := resumeAll_eq_cons split
    exact ih others

/-! ### Reading up to the first error -/

/-- The first error of a resumed reading is that of the reading that gives up. -/
theorem readAll_of_resumeAll_eq_error {nodes : List Node} {cause : ReadError}
    {later : List (Except ReadError Node)}
    (split : resumeAll stop lexemes = nodes.map .ok ++ .error cause :: later) :
    readAll stop lexemes = .error cause := by
  induction nodes generalizing lexemes with
  | nil =>
    obtain ⟨rest, -, -, whole⟩ := resumeAll_eq_cons split
    exact whole
  | cons node nodes ih =>
    obtain ⟨rest, -, others, whole⟩ := resumeAll_eq_cons split
    rw [whole, ih others]
    rfl

/-- A resumed reading without errors is a reading. -/
theorem readAll_of_resumeAll_eq_ok {nodes : List Node}
    (same : resumeAll stop lexemes = nodes.map .ok) : readAll stop lexemes = .ok nodes := by
  induction nodes generalizing lexemes with
  | nil =>
    cases lexemes with
    | nil => rw [readAll]
    | cons lexeme rest => simp [resumeAll] at same
  | cons node nodes ih =>
    obtain ⟨rest, -, others, whole⟩ := resumeAll_eq_cons same
    rw [whole, ih others]
    rfl

end Lexemes

/-- **Reading on after errors.** A reader has at most as many results as there are lexemes, and from
then on finds the end of the text, where the last lexeme ends. The closers that it reports are the
stray ones that the prompt marks, in the same order and wherever the cursor is. An opener that is
never closed is its last result. What the text is read as is the first error among the results, or
all of them if there is none. -/
theorem resumed_reading (source : String) :
    ∃ results : List (Except ReadError Node),
      results.length ≤ (lexemes source).length ∧
      (∀ span, Except.error (ReadError.endOfText span) ∉ results) ∧
      (∀ count,
        let stop := ((lexemes source).getLast?.map (·.span.stop)).getD 0
        let ended : Except ReadError Node := .error (.endOfText ⟨stop, stop⟩)
        (Reader.ofLexemes (lexemes source)).take count =
          (results ++ List.replicate count ended).take count) ∧
      (∀ cursor, (marks source cursor).strays = results.filterMap strayStart?) ∧
      (∀ before opener after, results = before ++ .error (.missingCloser opener) :: after →
        after = []) ∧
      (∀ (nodes : List Node) cause later, results = nodes.map .ok ++ .error cause :: later →
        readProgram source = .error cause) ∧
      ∀ nodes : List Node, results = nodes.map .ok → readProgram source = .ok nodes := by
  refine ⟨resumeAll (Reader.ofLexemes (lexemes source)).stop (lexemes source),
    length_resumeAll_le _ _, endOfText_not_mem_resumeAll, ?_, ?_, ?_, ?_, ?_⟩
  · exact fun count => Reader.take_eq (Nat.le_refl count)
  · intro cursor
    rw [marks, strays_marksFrom, filterMap_strayStart?_resumeAll]
    rfl
  · exact fun before opener after split => eq_nil_of_resumeAll_eq_append split
  · exact fun nodes cause later split => readAll_of_resumeAll_eq_error split
  · exact fun nodes same => readAll_of_resumeAll_eq_ok same

end SubstLisp
