import SubstLisp.Form.Reading
import SubstLisp.Prompt.Balance

/-! # Balanced texts are the ones that can be read

How the parentheses of a text stand decides whether it can be read, and if not, why
(`SubstLisp.balance_eq`). They balance if and only if no initial part of the lexemes has more
closers than openers, and all of them together have as many
(`SubstLisp.balanceFrom_eq_balanced_iff`).
-/

namespace SubstLisp

/-- How the parentheses of a text stand that cannot be read for a given reason. -/
def ReadError.balance : ReadError → Balance
  | .unexpectedCloser span => .stray span.start
  | .missingCloser _ => .unfinished
  | .endOfText _ => .balanced

section Inside

variable {stop : Nat} {enclosing : List OpenList} {lexemes : List Lexeme}

/-- Reading an expression closes all lists that were open, and leaves the rest as it stands. -/
theorem balanceFrom_of_readInside_eq_ok {node : Node}
    (read : (readInside stop enclosing lexemes).result = .ok node) :
    balanceFrom enclosing.length lexemes =
      balanceFrom 0 (readInside stop enclosing lexemes).rest := by
  fun_induction readInside stop enclosing lexemes with
  | case1 => cases read
  | case2 => cases read
  | case3 enclosing span rest ih => exact ih read
  | case4 span rest => cases read
  | case5 span rest outermost => rfl
  | case6 span rest innermost next outer inner ih => exact ih read
  | case7 text span rest atom => rfl
  | case8 text span rest atom innermost outer ih => exact ih read

/-- Inside open lists, a read error is about what the balance stops at. -/
theorem balanceFrom_of_readInside_eq_error {cause : ReadError}
    (read : (readInside stop enclosing lexemes).result = .error cause) :
    balanceFrom enclosing.length lexemes = cause.balance := by
  fun_induction readInside stop enclosing lexemes with
  | case1 =>
    cases read
    rfl
  | case2 =>
    cases read
    rfl
  | case3 enclosing span rest ih => exact ih read
  | case4 span rest =>
    cases read
    rfl
  | case5 span rest outermost => cases read
  | case6 span rest innermost next outer inner ih => exact ih read
  | case7 text span rest atom => cases read
  | case8 text span rest atom innermost outer ih => exact ih read

/-- A text is over only where it has no more lexemes. -/
theorem readInside_ne_endOfText (nonempty : lexemes ≠ [] ∨ enclosing ≠ []) (span : Span) :
    (readInside stop enclosing lexemes).result ≠ .error (.endOfText span) := by
  fun_induction readInside stop enclosing lexemes with
  | case1 => simp at nonempty
  | case2 => simp
  | case3 enclosing span rest ih => exact ih (.inr (List.cons_ne_nil _ _))
  | case4 span rest => simp
  | case5 span rest outermost => simp
  | case6 span rest innermost next outer inner ih => exact ih (.inr (List.cons_ne_nil _ _))
  | case7 text span rest atom => simp
  | case8 text span rest atom innermost outer ih => exact ih (.inr (List.cons_ne_nil _ _))

end Inside

/-- The balance of lexemes is that of their first read error, if there is any. -/
theorem balanceFrom_eq (stop : Nat) (lexemes : List Lexeme) :
    balanceFrom 0 lexemes =
      match readAll stop lexemes with
      | .ok _ => .balanced
      | .error cause => cause.balance := by
  fun_induction readAll stop lexemes with
  | case1 => rfl
  | case2 lexeme rest reading cause failed => exact balanceFrom_of_readInside_eq_error failed
  | case3 lexeme rest reading node found cause failed ih =>
    have first : balanceFrom 0 (lexeme :: rest) = balanceFrom 0 reading.rest :=
      balanceFrom_of_readInside_eq_ok found
    rw [failed] at ih
    exact first.trans ih
  | case4 lexeme rest reading node found nodes others ih =>
    have first : balanceFrom 0 (lexeme :: rest) = balanceFrom 0 reading.rest :=
      balanceFrom_of_readInside_eq_ok found
    rw [others] at ih
    exact first.trans ih

/-- A whole program never ends where an expression is expected. -/
theorem readAll_ne_endOfText (stop : Nat) (lexemes : List Lexeme) (span : Span) :
    readAll stop lexemes ≠ .error (.endOfText span) := by
  fun_induction readAll stop lexemes with
  | case1 => simp
  | case2 lexeme rest reading cause failed =>
    have reported :=
      @readInside_ne_endOfText stop [] (lexeme :: rest) (.inl (List.cons_ne_nil _ _)) span
    intro same
    exact reported (failed.trans (congrArg _ (Except.error.inj same)))
  | case3 lexeme rest reading node found cause failed ih => rwa [failed] at ih
  | case4 => simp

/-- How the parentheses of a text stand is what comes of reading it. -/
theorem balance_eq (source : String) :
    balance source =
      match readProgram source with
      | .ok _ => .balanced
      | .error cause => cause.balance :=
  balanceFrom_eq _ _

/-- A text is a program just if its parentheses balance. -/
theorem readProgram_isOk_iff_balance {source : String} :
    (∃ program, readProgram source = .ok program) ↔ balance source = .balanced := by
  rw [balance_eq]
  cases read : readProgram source with
  | ok program => simp
  | error cause =>
    cases cause with
    | endOfText span => exact absurd read (readAll_ne_endOfText _ _ span)
    | _ => simp [ReadError.balance]

/-! ### Counting parentheses -/

def openers (lexemes : List Lexeme) : Nat :=
  lexemes.countP (·.kind = .opener)

def closers (lexemes : List Lexeme) : Nat :=
  lexemes.countP (·.kind = .closer)

/-- No initial part closes more than `depth` lists and those it opens itself, and all of it closes
just these. -/
def ClosesFrom (depth : Nat) (lexemes : List Lexeme) : Prop :=
  (∀ initial, initial <+: lexemes → closers initial ≤ depth + openers initial) ∧
    closers lexemes = depth + openers lexemes

theorem closesFrom_nil (depth : Nat) : ClosesFrom depth [] ↔ depth = 0 := by
  simp [ClosesFrom, openers, closers, eq_comm]

/-- Among the initial parts of some lexemes, the empty one asks for nothing. -/
theorem closesFrom_cons {depth : Nat} {lexeme : Lexeme} {rest : List Lexeme} :
    ClosesFrom depth (lexeme :: rest) ↔
      (∀ initial, initial <+: rest →
        closers (lexeme :: initial) ≤ depth + openers (lexeme :: initial)) ∧
      closers (lexeme :: rest) = depth + openers (lexeme :: rest) := by
  have empty : closers [] ≤ depth + openers [] := Nat.zero_le _
  simp only [ClosesFrom, List.prefix_cons_iff, forall_eq_or_imp, empty, true_and]
  refine and_congr_left fun _ => ⟨fun all initial inside => ?_, fun all initial some => ?_⟩
  · exact all _ ⟨initial, rfl, inside⟩
  · obtain ⟨first, rfl, inside⟩ := some
    exact all first inside

/-- Parentheses balance if and only if nothing is closed that is not open and nothing stays open. -/
theorem balanceFrom_eq_balanced_iff {depth : Nat} {lexemes : List Lexeme} :
    balanceFrom depth lexemes = .balanced ↔ ClosesFrom depth lexemes := by
  induction lexemes generalizing depth with
  | nil =>
    rw [closesFrom_nil, balanceFrom]
    split <;> simp_all
  | cons lexeme rest ih =>
    obtain ⟨kind, span⟩ := lexeme
    cases kind with
    | opener =>
      have counts : ∀ others : List Lexeme,
          openers (⟨.opener, span⟩ :: others) = 1 + openers others ∧
            closers (⟨.opener, span⟩ :: others) = closers others := by
        simp [openers, closers, Nat.add_comm]
      rw [balanceFrom, ih, closesFrom_cons, ClosesFrom]
      simp only [counts, Nat.add_assoc]
    | closer =>
      have counts : ∀ others : List Lexeme,
          openers (⟨.closer, span⟩ :: others) = openers others ∧
            closers (⟨.closer, span⟩ :: others) = closers others + 1 := by
        simp [openers, closers]
      cases depth with
      | zero =>
        have stray : ¬∀ initial, initial <+: rest → closers initial + 1 ≤ 0 + openers initial :=
          fun all => Nat.not_succ_le_zero _ (all [] List.nil_prefix)
        rw [balanceFrom, closesFrom_cons]
        simp only [counts, stray, false_and, reduceCtorEq]
      | succ outer =>
        rw [balanceFrom, ih, closesFrom_cons, ClosesFrom]
        simp only [counts, Nat.add_right_comm outer 1, Nat.add_le_add_iff_right,
          Nat.add_right_cancel_iff]
    | atom text =>
      have counts : ∀ others : List Lexeme,
          openers (⟨.atom text, span⟩ :: others) = openers others ∧
            closers (⟨.atom text, span⟩ :: others) = closers others := by
        simp [openers, closers]
      rw [balanceFrom, ih, closesFrom_cons, ClosesFrom]
      simp only [counts]

end SubstLisp
