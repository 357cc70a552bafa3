import SubstLisp.Proofs.Reading.Balance
import SubstLisp.Proofs.Reading.Joining

/-! # What is wrong with an unbalanced text

The prompt counts how many lists are open, the reader keeps them on a stack and gives up at the
first error. Both find the same (`SubstLisp.balance_agrees_with_readProgram`): a text that is not
balanced either has a closer that closes nothing, and the first of them is reported, or leaves
openers without a closer, and the last of these is reported.
-/

namespace SubstLisp

/-- All lists are closed where this closer stands, and none of the closers before it is stray. -/
def IsFirstStray (lexemes : List Lexeme) (closer : Span) : Prop :=
  ∃ before after, lexemes = before ++ ⟨.closer, closer⟩ :: after ∧ ClosesFrom 0 before

/-- This opener is not closed by what follows it, but all openers that follow it are. -/
def IsLastOpen (lexemes : List Lexeme) (opener : Span) : Prop :=
  ∃ before after, lexemes = before ++ ⟨.opener, opener⟩ :: after ∧ ClosesFrom 0 after

section Counts

variable {left right : List Lexeme}

theorem openers_append : openers (left ++ right) = openers left + openers right :=
  List.countP_append

theorem closers_append : closers (left ++ right) = closers left + closers right :=
  List.countP_append

/-- What follows a part that closes all lists stands as it does alone. -/
theorem balanceFrom_append {depth : Nat} (closes : balanceFrom depth left = .balanced) :
    balanceFrom depth (left ++ right) = balanceFrom 0 right := by
  fun_induction balanceFrom depth left with
  | case1 => rfl
  | case2 => cases closes
  | case3 depth span rest ih => exact ih closes
  | case4 => cases closes
  | case5 span rest outer ih => exact ih closes
  | case6 depth text span rest ih => exact ih closes

/-- A closer that closes nothing stays so, whatever follows. -/
theorem balanceFrom_append_of_stray {depth position : Nat}
    (stray : balanceFrom depth left = .stray position) :
    balanceFrom depth (left ++ right) = .stray position := by
  fun_induction balanceFrom depth left with
  | case1 => cases stray
  | case2 => cases stray
  | case3 depth span rest ih => exact ih stray
  | case4 => exact stray
  | case5 span rest outer ih => exact ih stray
  | case6 depth text span rest ih => exact ih stray

/-- Two parts that close just what they open do so together. -/
theorem ClosesFrom.append (first : ClosesFrom 0 left) (second : ClosesFrom 0 right) :
    ClosesFrom 0 (left ++ right) := by
  rw [← balanceFrom_eq_balanced_iff] at *
  rw [balanceFrom_append first, second]

/-- What closes just what it opens, and ends in a part that does too, starts with one that does. -/
theorem ClosesFrom.of_append (whole : ClosesFrom 0 (left ++ right)) (last : ClosesFrom 0 right) :
    ClosesFrom 0 left := by
  refine ⟨fun initial isPrefix => whole.1 initial (isPrefix.trans (List.prefix_append _ _)), ?_⟩
  have total := whole.2
  rw [openers_append, closers_append, last.2] at total
  omega

/-- An opener with nothing but closed lists behind it is not closed itself. -/
theorem ClosesFrom.opener_stays_open {opener : Span} (closes : ClosesFrom 0 right) :
    ¬ClosesFrom 0 (left ++ ⟨.opener, opener⟩ :: right) := by
  intro all
  have before : closers left ≤ 0 + openers left := all.1 left (List.prefix_append _ _)
  have here : openers (⟨.opener, opener⟩ :: right) = 1 + openers right ∧
      closers (⟨.opener, opener⟩ :: right) = closers right := by
    simp [openers, closers, Nat.add_comm]
  have whole := all.2
  rw [openers_append, closers_append, here.1, here.2, closes.2] at whole
  omega

/-- Lexemes in front do not matter for the last list that is left open. -/
theorem IsLastOpen.behind (used : List Lexeme) {lexemes : List Lexeme} {opener : Span}
    (last : IsLastOpen lexemes opener) : IsLastOpen (used ++ lexemes) opener := by
  obtain ⟨before, after, rfl, closes⟩ := last
  exact ⟨used ++ before, after, (List.append_assoc _ _ _).symm, closes⟩

/-- There is only one last opener that is not closed. -/
theorem IsLastOpen.unique {lexemes : List Lexeme} {opener other : Span}
    (last : IsLastOpen lexemes opener) (otherLast : IsLastOpen lexemes other) : opener = other := by
  obtain ⟨before, after, rfl, closes⟩ := last
  obtain ⟨otherBefore, otherAfter, same, otherCloses⟩ := otherLast
  -- Behind the earlier of two different openers, the later one would not be closed.
  obtain ⟨between, -, split⟩ | ⟨between, -, split⟩ := List.append_eq_append_iff.mp same
  · cases between with
    | nil =>
      cases split
      rfl
    | cons first between =>
      cases split
      exact absurd closes otherCloses.opener_stays_open
  · cases between with
    | nil =>
      cases split
      rfl
    | cons first between =>
      cases split
      exact absurd otherCloses closes.opener_stays_open

end Counts

/-! ### Where reading fails -/

section Inside

variable {stop : Nat} {enclosing : List OpenList} {lexemes : List Lexeme}

/-- The lexemes that an expression takes up are those that close the open lists. -/
theorem exists_of_readInside_eq_ok {node : Node}
    (read : (readInside stop enclosing lexemes).result = .ok node) :
    ∃ used, lexemes = used ++ (readInside stop enclosing lexemes).rest ∧
      balanceFrom enclosing.length used = .balanced := by
  fun_induction readInside stop enclosing lexemes with
  | case1 => cases read
  | case2 => cases read
  | case3 enclosing span rest ih =>
    obtain ⟨used, split, closes⟩ := ih read
    exact ⟨⟨.opener, span⟩ :: used, congrArg _ split, closes⟩
  | case4 span rest => cases read
  | case5 span rest outermost => exact ⟨[⟨.closer, span⟩], rfl, rfl⟩
  | case6 span rest innermost next outer inner ih =>
    obtain ⟨used, split, closes⟩ := ih read
    exact ⟨⟨.closer, span⟩ :: used, congrArg _ split, closes⟩
  | case7 text span rest atom => exact ⟨[⟨.atom text, span⟩], rfl, rfl⟩
  | case8 text span rest atom innermost outer ih =>
    obtain ⟨used, split, closes⟩ := ih read
    exact ⟨⟨.atom text, span⟩ :: used, congrArg _ split, closes⟩

/-- A closer is unexpected only where an expression could start. -/
theorem exists_of_readInside_eq_unexpectedCloser {closer : Span}
    (read : (readInside stop enclosing lexemes).result = .error (.unexpectedCloser closer)) :
    enclosing = [] ∧ ∃ rest, lexemes = ⟨.closer, closer⟩ :: rest := by
  fun_induction readInside stop enclosing lexemes with
  | case1 => cases read
  | case2 => cases read
  | case3 enclosing span rest ih => exact absurd (ih read).1 (List.cons_ne_nil _ _)
  | case4 span rest =>
    cases read
    exact ⟨rfl, rest, rfl⟩
  | case5 span rest outermost => cases read
  | case6 span rest innermost next outer inner ih =>
    exact absurd (ih read).1 (List.cons_ne_nil _ _)
  | case7 text span rest atom => cases read
  | case8 text span rest atom innermost outer ih => exact absurd (ih read).1 (List.cons_ne_nil _ _)

/-- The opener reported as not closed is one of the open lists, and the lists inside it get closed;
or it is the last open one among the lexemes. -/
theorem exists_of_readInside_eq_missingCloser {opener : Span}
    (read : (readInside stop enclosing lexemes).result = .error (.missingCloser opener)) :
    (∃ inside around, enclosing.map (·.opener) = inside ++ opener :: around ∧
      balanceFrom inside.length lexemes = .balanced) ∨ IsLastOpen lexemes opener := by
  fun_induction readInside stop enclosing lexemes with
  | case1 => cases read
  | case2 innermost outer =>
    cases read
    exact .inl ⟨[], outer.map (·.opener), rfl, rfl⟩
  | case3 enclosing span rest ih =>
    -- The list that is opened here may be the one that stays open.
    obtain ⟨inside, around, split, closes⟩ | last := ih read
    · cases inside with
      | nil =>
        cases split
        exact .inr ⟨[], rest, rfl, balanceFrom_eq_balanced_iff.mp closes⟩
      | cons own inside => exact .inl ⟨inside, around, (List.cons.inj split).2, closes⟩
    · exact .inr (last.behind [_])
  | case4 span rest => cases read
  | case5 span rest outermost => cases read
  | case6 span rest innermost next outer inner ih =>
    obtain ⟨inside, around, split, closes⟩ | last := ih read
    · exact .inl ⟨innermost.opener :: inside, around, congrArg _ split, closes⟩
    · exact .inr (last.behind [_])
  | case7 text span rest atom => cases read
  | case8 text span rest atom innermost outer ih =>
    obtain ⟨inside, around, split, closes⟩ | last := ih read
    · exact .inl ⟨inside, around, split, closes⟩
    · exact .inr (last.behind [_])

end Inside

section All

variable {stop : Nat} {lexemes : List Lexeme}

/-- Lexemes that close just what they open are a program. -/
theorem ClosesFrom.exists_readAll (stop : Nat) (closes : ClosesFrom 0 lexemes) :
    ∃ program, readAll stop lexemes = .ok program := by
  have balanced := balanceFrom_eq stop lexemes
  rw [balanceFrom_eq_balanced_iff.mpr closes] at balanced
  cases read : readAll stop lexemes with
  | ok program => exact ⟨program, rfl⟩
  | error cause =>
    cases cause with
    | endOfText span => exact absurd read (readAll_ne_endOfText _ _ span)
    | _ => simp [read, ReadError.balance] at balanced

/-- Reading reports the first closer that closes nothing, and no other one. -/
theorem readAll_eq_unexpectedCloser_iff {closer : Span} :
    readAll stop lexemes = .error (.unexpectedCloser closer) ↔ IsFirstStray lexemes closer := by
  constructor
  · intro read
    fun_induction readAll stop lexemes with
    | case1 => cases read
    | case2 lexeme rest reading cause failed =>
      cases read
      obtain ⟨-, after, split⟩ := exists_of_readInside_eq_unexpectedCloser failed
      exact ⟨[], after, split, (closesFrom_nil 0).mpr rfl⟩
    | case3 lexeme rest reading node found cause failed ih =>
      cases read
      obtain ⟨used, split, closes⟩ := exists_of_readInside_eq_ok found
      obtain ⟨before, after, others, closesToo⟩ := ih failed
      refine ⟨used ++ before, after, ?_, (balanceFrom_eq_balanced_iff.mp closes).append closesToo⟩
      rw [split, List.append_assoc, ← others]
    | case4 => cases read
  · rintro ⟨before, after, rfl, closes⟩
    obtain ⟨program, read⟩ := closes.exists_readAll stop
    rw [readAll_append read stop, readAll]
    rfl

/-- The opener that is reported is the last one that is left open. -/
theorem isLastOpen_of_readAll_eq_missingCloser {opener : Span}
    (read : readAll stop lexemes = .error (.missingCloser opener)) : IsLastOpen lexemes opener := by
  fun_induction readAll stop lexemes with
  | case1 => cases read
  | case2 lexeme rest reading cause failed =>
    cases read
    obtain ⟨inside, around, split, -⟩ | last := exists_of_readInside_eq_missingCloser failed
    · exact absurd split.symm (List.append_ne_nil_of_right_ne_nil _ (List.cons_ne_nil _ _))
    · exact last
  | case3 lexeme rest reading node found cause failed ih =>
    cases read
    obtain ⟨used, split, -⟩ := exists_of_readInside_eq_ok found
    rw [split]
    exact (ih failed).behind used
  | case4 => cases read

/-- Reading reports the last opener without a closer just where no closer is stray. -/
theorem readAll_eq_missingCloser_iff {opener : Span} :
    readAll stop lexemes = .error (.missingCloser opener) ↔
      balanceFrom 0 lexemes = .unfinished ∧ IsLastOpen lexemes opener := by
  constructor
  · intro read
    refine ⟨?_, isLastOpen_of_readAll_eq_missingCloser read⟩
    rw [balanceFrom_eq stop, read]
    rfl
  · rintro ⟨unfinished, last⟩
    rw [balanceFrom_eq stop] at unfinished
    cases read : readAll stop lexemes with
    | ok program => simp [read] at unfinished
    | error cause =>
      cases cause with
      | missingCloser other =>
        rw [(isLastOpen_of_readAll_eq_missingCloser read).unique last]
      | _ => simp [read, ReadError.balance] at unfinished

end All

/-- The prompt and the reader take a text for the same: balanced texts are those that are read, a
stray closer is the first one and stands where the prompt says, and a text is unfinished if its last
open opener is reported. No text ends where an expression is expected. -/
theorem balance_agrees_with_readProgram (source : String) :
    (balance source = .balanced ↔ ∃ program, readProgram source = .ok program) ∧
    (∀ position, balance source = .stray position ↔
      ∃ closer, readProgram source = .error (.unexpectedCloser closer) ∧
        closer.start = position) ∧
    (∀ closer, readProgram source = .error (.unexpectedCloser closer) ↔
      IsFirstStray (lexemes source) closer) ∧
    (balance source = .unfinished ↔
      ∃ opener, readProgram source = .error (.missingCloser opener)) ∧
    (∀ opener, readProgram source = .error (.missingCloser opener) ↔
      balance source = .unfinished ∧ IsLastOpen (lexemes source) opener) ∧
    ∀ span, readProgram source ≠ .error (.endOfText span) := by
  refine ⟨readProgram_isOk_iff_balance.symm, ?stray, fun _ => readAll_eq_unexpectedCloser_iff,
    ?unfinished, fun _ => readAll_eq_missingCloser_iff, readAll_ne_endOfText _ _⟩
  all_goals
    rw [balance_eq]
    cases readProgram source with
    | ok program => simp
    | error cause => cases cause <;> simp [ReadError.balance]

end SubstLisp
