import SubstLisp.Proofs.Reading.Places

/-! # Texts that go on

Whoever types on does not change what has been read (`SubstLisp.typing_on`). Only an atom that ends
where the text did may get longer, as long as its end is all there is to see. So a closer that
closes nothing is as wrong as before, whatever follows it.
-/

namespace SubstLisp

/-- Whether a lexeme is a parenthesis. -/
def LexemeKind.isParenthesis : LexemeKind → Bool
  | .opener | .closer => true
  | .atom _ => false

/-! ### One character after the other -/

/-- The lexemes of a text that ends at the byte `limit`, and those after more characters, the latest
one first. -/
inductive Continued (limit : Nat) : List Lexeme → List Lexeme → Prop where
  | further (before later : List Lexeme)
      (behind : ∀ lexeme ∈ later, limit ≤ lexeme.span.start) :
      Continued limit before (later ++ before)
  /-- The latest lexeme is an atom that has got longer. -/
  | longer (earlier later : List Lexeme) (text more : String) (start : Nat)
      (behind : ∀ lexeme ∈ later, limit ≤ lexeme.span.start) :
      Continued limit (⟨.atom text, ⟨start, limit⟩⟩ :: earlier)
        (later ++ ⟨.atom (text ++ more), ⟨start, limit + more.utf8ByteSize⟩⟩ :: earlier)

namespace Continued

variable {limit : Nat} {before after : List Lexeme}

theorem refl (before : List Lexeme) : Continued limit before before :=
  .further before [] fun _ => List.not_mem_nil.elim

/-- One more lexeme behind the text goes on with it. -/
theorem cons (continued : Continued limit before after) {lexeme : Lexeme}
    (behind : limit ≤ lexeme.span.start) : Continued limit before (lexeme :: after) := by
  cases continued with
  | further _ later others =>
    exact .further before (lexeme :: later) (List.forall_mem_cons.mpr ⟨behind, others⟩)
  | longer earlier later text more start others =>
    exact .longer earlier (lexeme :: later) text more start
      (List.forall_mem_cons.mpr ⟨behind, others⟩)

/-- The latest atom takes up one more character, be it an atom of the text or a later one. -/
theorem extend {offset first : Nat} {text : String} {others : List Lexeme}
    (ended : ∀ lexeme ∈ before, lexeme.span.stop ≤ limit) (le : limit ≤ offset)
    (continued : Continued limit before (⟨.atom text, ⟨first, offset⟩⟩ :: others)) (c : Char) :
    Continued limit before
      (⟨.atom (text ++ .singleton c), ⟨first, offset + c.utf8Size⟩⟩ :: others) := by
  generalize same : ⟨.atom text, ⟨first, offset⟩⟩ :: others = after at continued
  cases continued with
  | further _ later behind =>
    cases later with
    | nil =>
      subst same
      obtain rfl : offset = limit := Nat.le_antisymm (ended _ List.mem_cons_self) le
      rw [← String.utf8ByteSize_singleton]
      exact .longer others [] text (.singleton c) first fun _ => List.not_mem_nil.elim
    | cons latest later =>
      cases same
      rw [List.forall_mem_cons] at behind
      exact (further before later behind.2).cons behind.1
  | longer earlier later own more start behind =>
    cases later with
    | nil =>
      cases same
      have size : (more ++ .singleton c).utf8ByteSize = more.utf8ByteSize + c.utf8Size := by
        rw [String.utf8ByteSize_append, String.utf8ByteSize_singleton]
      have further : Continued limit (⟨.atom own, ⟨first, limit⟩⟩ :: others) _ :=
        .longer others [] own (more ++ .singleton c) first fun _ => List.not_mem_nil.elim
      rwa [size, ← String.append_assoc, ← Nat.add_assoc] at further
    | cons latest later =>
      cases same
      rw [List.forall_mem_cons] at behind
      exact (longer earlier later own more start behind.2).cons behind.1

/-- One more character behind the text goes on with it, whatever the scanner makes of it. -/
theorem reads {offset : Nat} {c : Char} {next : List Lexeme}
    (ended : ∀ lexeme ∈ before, lexeme.span.stop ≤ limit) (le : limit ≤ offset)
    (continued : Continued limit before after) (reads : Scanner.Reads offset c after next) :
    Continued limit before next := by
  cases reads with
  | skips => exact continued
  | opens => exact continued.cons le
  | closes => exact continued.cons le
  | begins => exact continued.cons le
  | continues lexemes first letters =>
    have longer : String.ofList (c :: letters).reverse =
        String.ofList letters.reverse ++ .singleton c := by
      rw [List.reverse_cons, String.ofList_append, String.singleton_eq_ofList]
    rw [longer]
    exact continued.extend ended le c

/-- However many characters follow, the lexemes of the text are kept. -/
theorem run {scanner : Scanner} (ended : ∀ lexeme ∈ before, lexeme.span.stop ≤ limit)
    (le : limit ≤ scanner.offset) (continued : Continued limit before scanner.latestFirst)
    (cs : List Char) : Continued limit before (scanner.run cs).latestFirst := by
  induction cs generalizing scanner with
  | nil => exact continued
  | cons c rest ih =>
    refine ih ?_ (continued.reads ended le (scanner.step_reads c))
    rw [scanner.offset_step]
    exact Nat.le_trans le (Nat.le_add_right _ _)

/-- Lexemes are told apart from later ones by anything that the last atom does not have, nor what
starts behind the text. -/
theorem filter_eq (continued : Continued limit before after) {p : Lexeme → Bool}
    (behind : ∀ lexeme ∈ after, limit ≤ lexeme.span.start → p lexeme = false)
    (last : ∀ text start stop, limit ≤ stop → p ⟨.atom text, ⟨start, stop⟩⟩ = false) :
    after.filter p = before.filter p := by
  have none : ∀ later : List Lexeme, (∀ lexeme ∈ later, limit ≤ lexeme.span.start) →
      (∀ lexeme ∈ later, lexeme ∈ after) → later.filter p = [] := by
    intro later starts inside
    refine List.filter_eq_nil_iff.mpr fun lexeme member => ?_
    exact Bool.eq_false_iff.mp (behind lexeme (inside lexeme member) (starts lexeme member))
  cases continued with
  | further _ later starts =>
    rw [List.filter_append, none later starts fun _ => List.mem_append_left _, List.nil_append]
  | longer earlier later text more start starts =>
    rw [List.filter_append, none later starts fun _ => List.mem_append_left _, List.nil_append,
      List.filter_cons_of_neg (by simp [last]), List.filter_cons_of_neg (by simp [last])]

end Continued

/-- The lexemes of a longer text continue those of the text. -/
theorem lexemes_continued (source more : String) :
    Continued source.utf8ByteSize (lexemes source).reverse (lexemes (source ++ more)).reverse := by
  have ended : ∀ lexeme ∈ (lexemes source).reverse, lexeme.span.stop ≤ source.utf8ByteSize :=
    fun lexeme member => (liesIn_of_mem_lexemes (List.mem_reverse.mp member)).inside
  have start : Continued source.utf8ByteSize (lexemes source).reverse
      (Scanner.initial.run source.toList).latestFirst := by
    rw [Scanner.latestFirst_run_initial]
    exact .refl _
  have whole := start.run ended (Nat.le_of_eq (Scanner.offset_run_initial source).symm) more.toList
  rwa [← Scanner.run_append, ← String.toList_append, Scanner.latestFirst_run_initial] at whole

/-! ### What is kept -/

/-- The parentheses alone decide how they stand. -/
theorem balanceFrom_filter_isParenthesis (depth : Nat) (lexemes : List Lexeme) :
    balanceFrom depth (lexemes.filter (·.kind.isParenthesis)) = balanceFrom depth lexemes := by
  fun_induction balanceFrom depth lexemes with
  | case1 => rfl
  | case2 depth open_ => simp [balanceFrom, open_]
  | case3 depth span rest ih => exact ih
  | case4 span rest => rfl
  | case5 span rest outer ih => exact ih
  | case6 depth text span rest ih => exact ih

/-- What becomes of the lexemes of a text that ends at the byte `limit` and then goes on. -/
structure KeptBy (limit : Nat) (before after : List Lexeme) : Prop where
  ended : after.filter (·.span.stop < limit) = before.filter (·.span.stop < limit)
  parentheses :
    after.filter (fun lexeme => lexeme.kind.isParenthesis && lexeme.span.start < limit) =
      before.filter (·.kind.isParenthesis)
  /-- All lexemes stay as they are, or only the last one gets longer: an atom that ends where the
  text did. -/
  shape : (∃ later, after = before ++ later ∧ ∀ lexeme ∈ later, limit ≤ lexeme.span.start) ∨
    ∃ earlier text start more later, before = earlier ++ [⟨.atom text, ⟨start, limit⟩⟩] ∧
      after = earlier ++ ⟨.atom (text ++ more), ⟨start, limit + more.utf8ByteSize⟩⟩ :: later ∧
      ∀ lexeme ∈ later, limit ≤ lexeme.span.start

/-- The lexemes of a text are kept by more of it. -/
theorem keptBy (source more : String) :
    KeptBy source.utf8ByteSize (lexemes source) (lexemes (source ++ more)) := by
  have continued := lexemes_continued source more
  obtain ⟨nonempty, -⟩ := lexemes_stand (source ++ more)
  refine ⟨?ended, ?parentheses, ?shape⟩
  case ended =>
    have reversed : (lexemes (source ++ more)).reverse.filter
        (·.span.stop < source.utf8ByteSize) =
        (lexemes source).reverse.filter (·.span.stop < source.utf8ByteSize) := by
      refine continued.filter_eq (fun lexeme member start => ?_) fun text start stop le => ?_
      · have order := nonempty lexeme (List.mem_reverse.mp member)
        exact decide_eq_false (by omega)
      · exact decide_eq_false (Nat.not_lt.mpr le)
    rwa [List.filter_reverse, List.filter_reverse, List.reverse_inj] at reversed
  case parentheses =>
    have reversed : (lexemes (source ++ more)).reverse.filter
        (fun lexeme => lexeme.kind.isParenthesis && lexeme.span.start < source.utf8ByteSize) =
        (lexemes source).reverse.filter
          (fun lexeme => lexeme.kind.isParenthesis && lexeme.span.start < source.utf8ByteSize) := by
      refine continued.filter_eq (fun lexeme member start => ?_) fun text start stop le => rfl
      simp [Nat.not_lt.mpr start]
    rw [List.filter_reverse, List.filter_reverse, List.reverse_inj] at reversed
    rw [reversed]
    refine List.filter_congr fun lexeme member => ?_
    have place := liesIn_of_mem_lexemes member
    simp [Nat.lt_of_lt_of_le place.nonempty place.inside]
  case shape =>
    generalize first : (lexemes source).reverse = before at continued
    generalize second : (lexemes (source ++ more)).reverse = after at continued
    rw [List.reverse_eq_iff] at first second
    rw [first, second]
    cases continued with
    | further _ later behind =>
      refine .inl ⟨later.reverse, List.reverse_append, fun lexeme member => ?_⟩
      exact behind lexeme (List.mem_reverse.mp member)
    | longer earlier later text more start behind =>
      refine .inr ⟨earlier.reverse, text, start, more, later.reverse, List.reverse_cons, ?_, ?_⟩
      · simp
      · exact fun lexeme member => behind lexeme (List.mem_reverse.mp member)

/-- What follows a closer that closes nothing does not count. -/
theorem KeptBy.balanceFrom_of_stray {limit position : Nat} {before after : List Lexeme}
    (kept : KeptBy limit before after) (stray : balanceFrom 0 before = .stray position) :
    balanceFrom 0 after = .stray position := by
  obtain ⟨later, rfl, -⟩ | ⟨earlier, text, start, more, later, rfl, rfl, -⟩ := kept.shape
  · exact balanceFrom_append_of_stray stray
  · -- The atom at the end of the text has no part in it.
    have withoutAtom : balanceFrom 0 (earlier ++ [⟨.atom text, ⟨start, limit⟩⟩]) =
        balanceFrom 0 earlier := by
      rw [← balanceFrom_filter_isParenthesis, List.filter_append,
        ← balanceFrom_filter_isParenthesis 0 earlier]
      exact congrArg _ (List.append_nil _)
    rw [withoutAtom] at stray
    exact balanceFrom_append_of_stray stray

/-- **Typing on does not rewrite what has been read.** -/
theorem typing_on (source more : String) :
    KeptBy source.utf8ByteSize (lexemes source) (lexemes (source ++ more)) ∧
    ∀ position, balance source = .stray position →
      balance (source ++ more) = .stray position :=
  ⟨keptBy source more, fun _ stray => (keptBy source more).balanceFrom_of_stray stray⟩

/-- A closer that closes nothing stays the fault of the text, whatever is typed behind it. -/
theorem typing_on_behind_a_stray_closer :
    balance "a)b" = .stray 1 ∧
    KeptBy 3 (lexemes "a)b") (lexemes ("a)b" ++ "c (")) ∧
    balance ("a)b" ++ "c (") = .stray 1 := by
  have stray : balance "a)b" = .stray 1 := by decide
  have size : "a)b".utf8ByteSize = 3 := by decide
  obtain ⟨kept, still⟩ := typing_on "a)b" "c ("
  exact ⟨stray, size ▸ kept, still 1 stray⟩

end SubstLisp
