import SubstLisp.Proofs.Reading.Scanning

/-! # What the lexemes of a text are like

One more character leaves the lexemes read so far as they are, or starts a lexeme, or continues the
atom that was read last (`SubstLisp.Scanner.step_reads`). Whatever this keeps is true of the lexemes
of every text: they stand one behind the other, none of them is empty, and the atoms have no blanks
and no parentheses in them (`SubstLisp.lexemes_stand`, `SubstLisp.isAtomText_of_mem_lexemes`).
-/

namespace SubstLisp

namespace Scanner

/-- What a character at the byte `offset` makes of the lexemes before it, the latest one first. -/
inductive Reads (offset : Nat) (c : Char) : List Lexeme → List Lexeme → Prop where
  /-- The character is a blank or part of a comment. -/
  | skips (lexemes : List Lexeme) : Reads offset c lexemes lexemes
  | opens (lexemes : List Lexeme) (opener : c = '(') :
      Reads offset c lexemes (⟨.opener, ⟨offset, offset + c.utf8Size⟩⟩ :: lexemes)
  | closes (lexemes : List Lexeme) (closer : c = ')') :
      Reads offset c lexemes (⟨.closer, ⟨offset, offset + c.utf8Size⟩⟩ :: lexemes)
  | begins (lexemes : List Lexeme) (notComment : c ≠ ';') (inAtom : endsAtom c = false) :
      Reads offset c lexemes
        (⟨.atom (String.ofList [c]), ⟨offset, offset + c.utf8Size⟩⟩ :: lexemes)
  | continues (lexemes : List Lexeme) (first : Nat) (letters : List Char)
      (inAtom : endsAtom c = false) :
      Reads offset c (⟨.atom (String.ofList letters.reverse), ⟨first, offset⟩⟩ :: lexemes)
        (⟨.atom (String.ofList (c :: letters).reverse), ⟨first, offset + c.utf8Size⟩⟩ :: lexemes)

/-- A character between lexemes starts one, is one, or is skipped. -/
theorem start_reads (offset : Nat) (finished : List Lexeme) (c : Char) :
    Reads offset c finished (start offset finished c).latestFirst := by
  unfold start
  by_cases opener : c = '('
  · simp only [opener, ↓reduceIte]
    exact .opens finished rfl
  · by_cases closer : c = ')'
    · simp only [closer, ↓reduceIte]
      exact .closes finished rfl
    · by_cases comment : c = ';'
      · simp only [comment, ↓reduceIte]
        exact .skips finished
      · by_cases blank : isBlank c
        · simp only [opener, closer, comment, blank, ↓reduceIte]
          exact .skips finished
        · have inAtom : endsAtom c = false := by
            simp [endsAtom, isParenthesis, opener, closer, blank]
          simp only [opener, closer, comment, blank, Bool.false_eq_true, ↓reduceIte]
          exact .begins finished comment inAtom

/-- Everything that one more character can do. -/
theorem step_reads (scanner : Scanner) (c : Char) :
    Reads scanner.offset c scanner.latestFirst (scanner.step c).latestFirst := by
  obtain ⟨offset, finished, pending⟩ := scanner
  cases pending with
  | gap => exact start_reads offset finished c
  | comment =>
    by_cases lineBreak : c = '\n'
    · simp only [step, lineBreak, ↓reduceIte]
      exact .skips finished
    · simp only [step, lineBreak, ↓reduceIte]
      exact .skips finished
  | atom first letters =>
    by_cases ends : endsAtom c
    · simp only [step, ends, ↓reduceIte]
      exact start_reads offset _ c
    · simp only [step, ends, Bool.false_eq_true, ↓reduceIte]
      exact .continues finished first letters (by simpa using ends)

end Scanner

/-! ### Where lexemes stand -/

/-- Lexemes none of which is empty, the latest one first. Each ends before the later ones start, and
all of them end up to the byte `limit`. -/
def StandBefore : (limit : Nat) → List Lexeme → Prop
  | _, [] => True
  | limit, lexeme :: earlier =>
      lexeme.span.stop ≤ limit ∧ lexeme.span.start < lexeme.span.stop ∧
        StandBefore lexeme.span.start earlier

/-- Lexemes that stand before one place stand before a later one. -/
theorem StandBefore.mono {limit further : Nat} (le : limit ≤ further) {lexemes : List Lexeme}
    (stand : StandBefore limit lexemes) : StandBefore further lexemes := by
  cases lexemes with
  | nil => trivial
  | cons lexeme earlier => exact ⟨Nat.le_trans stand.1 le, stand.2⟩

/-- Lexemes that stand before a place end there or earlier, and do not overlap. -/
theorem StandBefore.pairwise {limit : Nat} {lexemes : List Lexeme}
    (stand : StandBefore limit lexemes) :
    (∀ lexeme ∈ lexemes, lexeme.span.start < lexeme.span.stop ∧ lexeme.span.stop ≤ limit) ∧
      lexemes.Pairwise fun later earlier => earlier.span.stop ≤ later.span.start := by
  induction lexemes generalizing limit with
  | nil => simp
  | cons lexeme earlier ih =>
    obtain ⟨inside, nonempty, before⟩ := stand
    obtain ⟨bounds, pairwise⟩ := ih before
    refine ⟨List.forall_mem_cons.mpr ⟨⟨nonempty, inside⟩, ?_⟩, .cons ?_ pairwise⟩
    · intro other member
      have bound := bounds other member
      exact ⟨bound.1, by omega⟩
    · exact fun other member => (bounds other member).2

/-- Lexemes stand before the next character, and then before the one after it. -/
theorem StandBefore.reads {offset : Nat} {c : Char} {before after : List Lexeme}
    (stand : StandBefore offset before) (reads : Scanner.Reads offset c before after) :
    StandBefore (offset + c.utf8Size) after := by
  have positive := c.utf8Size_pos
  have follows : ∀ kind, StandBefore (offset + c.utf8Size)
      (⟨kind, ⟨offset, offset + c.utf8Size⟩⟩ :: before) :=
    fun kind => ⟨Nat.le_refl _, Nat.lt_add_of_pos_right positive, stand⟩
  cases reads with
  | skips => exact stand.mono (Nat.le_add_right _ _)
  | opens => exact follows .opener
  | closes => exact follows .closer
  | begins => exact follows _
  | continues lexemes first letters =>
    obtain ⟨-, nonempty, earlier⟩ := stand
    exact ⟨Nat.le_refl _, Nat.lt_of_lt_of_le nonempty (Nat.le_add_right _ _), earlier⟩

/-- However far a scanner goes, its lexemes stand before the place it has come to. -/
theorem standBefore_run {scanner : Scanner} (cs : List Char)
    (stand : StandBefore scanner.offset scanner.latestFirst) :
    StandBefore (scanner.run cs).offset (scanner.run cs).latestFirst := by
  induction cs generalizing scanner with
  | nil => exact stand
  | cons c rest ih =>
    have next := stand.reads (scanner.step_reads c)
    rw [← scanner.offset_step c] at next
    exact ih next

/-- No lexeme is empty, and each ends before the next one starts. -/
theorem lexemes_stand (source : String) :
    (∀ lexeme ∈ lexemes source, lexeme.span.start < lexeme.span.stop) ∧
      (lexemes source).Pairwise fun earlier later => earlier.span.stop ≤ later.span.start := by
  have stand : StandBefore Scanner.initial.offset Scanner.initial.latestFirst := trivial
  obtain ⟨bounds, pairwise⟩ := (standBefore_run source.toList stand).pairwise
  refine ⟨?_, List.pairwise_reverse.mpr pairwise⟩
  intro lexeme member
  exact (bounds lexeme (List.mem_reverse.mp member)).1

/-- Two lexemes are covered by the span from the start of the earlier to the end of the
later one. -/
theorem lexemes_merge (source : String) :
    (lexemes source).Pairwise fun earlier later =>
      earlier.span.merge later.span = ⟨earlier.span.start, later.span.stop⟩ := by
  obtain ⟨nonempty, pairwise⟩ := lexemes_stand source
  refine pairwise.imp_of_mem fun {earlier later} first second apart => ?_
  have left := nonempty earlier first
  have right := nonempty later second
  simp only [Span.merge, Span.mk.injEq]
  omega

/-! ### What atoms are made of -/

/-- Characters that are read as one atom: there are no blanks and no parentheses among them, and
they do not start like a comment. -/
def IsAtomText : List Char → Prop
  | [] => False
  | first :: rest => first ≠ ';' ∧ ∀ c ∈ first :: rest, endsAtom c = false

instance : DecidablePred IsAtomText
  | [] => isFalse id
  -- Only the members of the list are looked at, not all characters there are.
  | first :: rest =>
    @instDecidableAnd _ _ _ (List.decidableBAll (fun c => endsAtom c = false) (first :: rest))

/-- An atom may go on with every character that does not end it. -/
theorem IsAtomText.concat {cs : List Char} (isAtom : IsAtomText cs) {c : Char}
    (inAtom : endsAtom c = false) : IsAtomText (cs ++ [c]) := by
  cases cs with
  | nil => exact isAtom.elim
  | cons first rest =>
    refine ⟨isAtom.1, ?_⟩
    change ∀ other ∈ (first :: rest) ++ [c], _
    rw [List.forall_mem_append, List.forall_mem_singleton]
    exact ⟨isAtom.2, inAtom⟩

namespace Scanner

/-- Inside an atom, letters are only gathered. -/
theorem run_inAtom {cs : List Char} (inAtom : ∀ c ∈ cs, endsAtom c = false) (offset : Nat)
    (finished : List Lexeme) (first : Nat) (letters : List Char) :
    run ⟨offset, finished, .atom first letters⟩ cs =
      ⟨offset + (String.ofList cs).utf8ByteSize, finished,
        .atom first (cs.reverse ++ letters)⟩ := by
  -- On the characters still to be read, whatever letters the atom has already.
  induction cs generalizing offset letters with
  | nil => rfl
  | cons c rest ih =>
    rw [List.forall_mem_cons] at inAtom
    rw [run_cons, step]
    simp only [inAtom.1, Bool.false_eq_true, ↓reduceIte, List.reverse_cons, List.append_assoc,
      List.singleton_append]
    rw [ih inAtom.2, utf8ByteSize_ofList_cons, Nat.add_assoc]

/-- The characters of an atom are read as one atom, whose end is still open. -/
theorem run_atomText {cs : List Char} (isAtom : IsAtomText cs) (offset : Nat)
    (finished : List Lexeme) :
    run ⟨offset, finished, .gap⟩ cs =
      ⟨offset + (String.ofList cs).utf8ByteSize, finished, .atom offset cs.reverse⟩ := by
  cases cs with
  | nil => exact isAtom.elim
  | cons c rest =>
    obtain ⟨notComment, inAtom⟩ := isAtom
    rw [List.forall_mem_cons] at inAtom
    have notEnd := inAtom.1
    simp only [endsAtom, isParenthesis, Bool.or_eq_false_iff, decide_eq_false_iff_not] at notEnd
    obtain ⟨blank, opener, closer⟩ := notEnd
    have started : start offset finished c =
        ⟨offset + c.utf8Size, finished, .atom offset [c]⟩ := by
      simp only [start, opener, closer, notComment, blank, Bool.false_eq_true, ↓reduceIte]
    rw [run_cons, step, started, run_inAtom inAtom.2, utf8ByteSize_ofList_cons, Nat.add_assoc,
      List.reverse_cons]

end Scanner

/-- The texts of the atoms among some lexemes are read as atoms. -/
def HaveAtomTexts (lexemes : List Lexeme) : Prop :=
  ∀ text span, ⟨.atom text, span⟩ ∈ lexemes → IsAtomText text.toList

/-- An atom in front has a text that atoms may have, and so have the others. -/
theorem haveAtomTexts_cons {kind : LexemeKind} {span : Span} {lexemes : List Lexeme} :
    HaveAtomTexts (⟨kind, span⟩ :: lexemes) ↔
      (∀ text, kind = .atom text → IsAtomText text.toList) ∧ HaveAtomTexts lexemes := by
  simp only [HaveAtomTexts, List.mem_cons, Lexeme.mk.injEq]
  constructor
  · intro all
    refine ⟨?_, fun text place member => all text place (.inr member)⟩
    rintro text rfl
    exact all text span (.inl ⟨rfl, rfl⟩)
  · rintro ⟨first, later⟩ text place (⟨rfl, -⟩ | member)
    · exact first text rfl
    · exact later text place member

/-- The next character starts or goes on with an atom only where it may. -/
theorem HaveAtomTexts.reads {offset : Nat} {c : Char} {before after : List Lexeme}
    (atoms : HaveAtomTexts before) (reads : Scanner.Reads offset c before after) :
    HaveAtomTexts after := by
  cases reads with
  | skips => exact atoms
  | opens => exact haveAtomTexts_cons.mpr ⟨fun _ => LexemeKind.noConfusion, atoms⟩
  | closes => exact haveAtomTexts_cons.mpr ⟨fun _ => LexemeKind.noConfusion, atoms⟩
  | begins _ notComment inAtom =>
    refine haveAtomTexts_cons.mpr ⟨?_, atoms⟩
    rintro text ⟨⟩
    rw [String.toList_ofList]
    exact ⟨notComment, by simpa using inAtom⟩
  | continues lexemes first letters inAtom =>
    obtain ⟨isAtom, earlier⟩ := haveAtomTexts_cons.mp atoms
    refine haveAtomTexts_cons.mpr ⟨?_, earlier⟩
    rintro text ⟨⟩
    have letters := isAtom _ rfl
    rw [String.toList_ofList] at letters ⊢
    rw [List.reverse_cons]
    exact letters.concat inAtom

/-- However far a scanner goes, its atoms have texts that atoms may have. -/
theorem haveAtomTexts_run {scanner : Scanner} (cs : List Char)
    (atoms : HaveAtomTexts scanner.latestFirst) : HaveAtomTexts (scanner.run cs).latestFirst := by
  induction cs generalizing scanner with
  | nil => exact atoms
  | cons c rest ih => exact ih (atoms.reads (scanner.step_reads c))

/-- The atoms of a text have texts that atoms may have. -/
theorem isAtomText_of_mem_lexemes {source text : String} {span : Span}
    (member : ⟨.atom text, span⟩ ∈ lexemes source) : IsAtomText text.toList := by
  have none : HaveAtomTexts Scanner.initial.latestFirst := fun _ _ => List.not_mem_nil.elim
  exact haveAtomTexts_run source.toList none text span (List.mem_reverse.mp member)

end SubstLisp
