import Mathlib.Data.List.Basic
import SubstLisp.Proofs.Reading.Places
import SubstLisp.Proofs.Reading.Resuming

/-! # What the marked parentheses of a line are

An opener and a closer are a pair if what is between them closes all the lists it opens and no
others. The marks of a line are found with a stack of openers, and they are what this says: the pair
is the last one to close among those that the cursor touches, and the strays are the closers that
belong to no pair (`SubstLisp.marksMatches_marks`).
-/

namespace SubstLisp

/-- A closer at the byte `position` closes the list that is behind `depth` others among those open
before these lexemes. -/
def IsClosedAt (depth : Nat) (lexemes : List Lexeme) (position : Nat) : Prop :=
  ∃ inside span after, lexemes = inside ++ ⟨.closer, span⟩ :: after ∧ ClosesFrom depth inside ∧
    span.start = position

/-- There is an opener at the byte `opener` and a later closer at the byte `closer`, and the
parentheses between them balance. -/
def IsPair (lexemes : List Lexeme) (opener closer : Nat) : Prop :=
  ∃ before span rest, lexemes = before ++ ⟨.opener, span⟩ :: rest ∧ span.start = opener ∧
    IsClosedAt 0 rest closer

def HasCloser (lexemes : List Lexeme) (position : Nat) : Prop :=
  ∃ lexeme ∈ lexemes, lexeme.kind = .closer ∧ lexeme.span.start = position

/-- A pair with a parenthesis right before or right behind the cursor. -/
def IsPairAt (cursor : Nat) (lexemes : List Lexeme) (opener closer : Nat) : Prop :=
  IsPair lexemes opener closer ∧
    (opener = cursor ∨ opener + 1 = cursor ∨ closer = cursor ∨ closer + 1 = cursor)

/-- The parentheses that ought to be marked with the cursor at byte `cursor`. -/
structure MarksMatches (line : String) (cursor : Nat) (marks : Marks) : Prop where
  /-- The pair is at the cursor, and every other one there closes earlier. -/
  pair : ∀ opener closer, marks.pair = some (opener, closer) ↔
    IsPairAt cursor (lexemes line) opener closer ∧
      ∀ other last, IsPairAt cursor (lexemes line) other last →
        last < closer ∨ other = opener ∧ last = closer
  noPair : marks.pair = none ↔ ∀ opener closer, ¬IsPairAt cursor (lexemes line) opener closer
  strays : ∀ position, position ∈ marks.strays ↔
    HasCloser (lexemes line) position ∧ ∀ opener, ¬IsPair (lexemes line) opener position
  inOrder : marks.strays.Pairwise (· < ·)
  /-- The first stray closer is the one that is reported, and without any there is no report. -/
  reported : ∀ position, balance line = .stray position ↔ marks.strays.head? = some position

/-! ### Pairs, one lexeme after the other -/

section Cons

variable {depth position opener closer : Nat} {span : Span} {rest : List Lexeme}

/-- A list is closed by the next lexeme, or by a closer behind it and more. -/
theorem isClosedAt_cons {lexeme : Lexeme} :
    IsClosedAt depth (lexeme :: rest) position ↔
      (depth = 0 ∧ lexeme.kind = .closer ∧ lexeme.span.start = position) ∨
        ∃ inside span after, rest = inside ++ ⟨.closer, span⟩ :: after ∧
          ClosesFrom depth (lexeme :: inside) ∧ span.start = position := by
  constructor
  · rintro ⟨inside, span, after, split, closes, starts⟩
    cases inside with
    | nil =>
      obtain ⟨rfl, rfl⟩ := List.cons.inj split
      exact .inl ⟨(closesFrom_nil depth).mp closes, rfl, starts⟩
    | cons first inside =>
      obtain ⟨rfl, rfl⟩ := List.cons.inj split
      exact .inr ⟨inside, span, after, rfl, closes, starts⟩
  · rintro (⟨rfl, isCloser, starts⟩ | ⟨inside, span, after, rfl, closes, starts⟩)
    · obtain ⟨kind, span⟩ := lexeme
      obtain rfl : kind = .closer := isCloser
      exact ⟨[], span, rest, rfl, (closesFrom_nil 0).mpr rfl, starts⟩
    · exact ⟨lexeme :: inside, span, after, rfl, closes, starts⟩

/-- Another opener is closed before the list around it. -/
theorem isClosedAt_opener :
    IsClosedAt depth (⟨.opener, span⟩ :: rest) position ↔ IsClosedAt (depth + 1) rest position := by
  rw [isClosedAt_cons]
  simp only [← balanceFrom_eq_balanced_iff, balanceFrom, IsClosedAt, reduceCtorEq, false_and,
    and_false, false_or]

theorem isClosedAt_atom {text : String} :
    IsClosedAt depth (⟨.atom text, span⟩ :: rest) position ↔ IsClosedAt depth rest position := by
  rw [isClosedAt_cons]
  simp only [← balanceFrom_eq_balanced_iff, balanceFrom, IsClosedAt, reduceCtorEq, false_and,
    and_false, false_or]

theorem isClosedAt_closer_zero :
    IsClosedAt 0 (⟨.closer, span⟩ :: rest) position ↔ span.start = position := by
  rw [isClosedAt_cons]
  simp only [← balanceFrom_eq_balanced_iff, balanceFrom, reduceCtorEq, false_and, and_false,
    exists_false, or_false, true_and]

/-- A closer inside of another list closes that one. -/
theorem isClosedAt_closer_succ :
    IsClosedAt (depth + 1) (⟨.closer, span⟩ :: rest) position ↔ IsClosedAt depth rest position := by
  rw [isClosedAt_cons]
  simp only [← balanceFrom_eq_balanced_iff, balanceFrom, IsClosedAt, Nat.succ_ne_zero, false_and,
    false_or]

/-- A pair starts with the first lexeme or is one of the others. -/
theorem isPair_cons {lexeme : Lexeme} :
    IsPair (lexeme :: rest) opener closer ↔
      (lexeme.kind = .opener ∧ lexeme.span.start = opener ∧ IsClosedAt 0 rest closer) ∨
        IsPair rest opener closer := by
  constructor
  · rintro ⟨before, span, others, split, starts, closed⟩
    cases before with
    | nil =>
      obtain ⟨rfl, rfl⟩ := List.cons.inj split
      exact .inl ⟨rfl, starts, closed⟩
    | cons first before =>
      obtain ⟨rfl, rfl⟩ := List.cons.inj split
      exact .inr ⟨before, span, others, rfl, starts, closed⟩
  · rintro (⟨isOpener, starts, closed⟩ | ⟨before, span, others, rfl, starts, closed⟩)
    · obtain ⟨kind, span⟩ := lexeme
      obtain rfl : kind = .opener := isOpener
      exact ⟨[], span, rest, rfl, starts, closed⟩
    · exact ⟨lexeme :: before, span, others, rfl, starts, closed⟩

theorem hasCloser_cons {lexeme : Lexeme} :
    HasCloser (lexeme :: rest) position ↔
      (lexeme.kind = .closer ∧ lexeme.span.start = position) ∨ HasCloser rest position := by
  simp only [HasCloser, List.mem_cons, exists_eq_or_imp]

theorem IsClosedAt.hasCloser {lexemes : List Lexeme} (closed : IsClosedAt depth lexemes position) :
    HasCloser lexemes position := by
  obtain ⟨inside, span, after, rfl, -, starts⟩ := closed
  exact ⟨_, List.mem_append_right _ List.mem_cons_self, rfl, starts⟩

/-- A pair has its closer among the lexemes. -/
theorem IsPair.hasCloser {lexemes : List Lexeme} (isPair : IsPair lexemes opener closer) :
    HasCloser lexemes closer := by
  obtain ⟨before, span, rest, rfl, -, closed⟩ := isPair
  obtain ⟨lexeme, member, isCloser⟩ := closed.hasCloser
  exact ⟨lexeme, List.mem_append_right _ (List.mem_cons_of_mem _ member), isCloser⟩

end Cons

/-! ### All pairs -/

/-- The pairs that these lexemes close, in the order in which they close. Those before have left the
openers `opened`, the latest first. -/
def pairsFrom : (opened : List Nat) → List Lexeme → List (Nat × Nat)
  | _, [] => []
  | opened, ⟨.opener, span⟩ :: rest => pairsFrom (span.start :: opened) rest
  | [], ⟨.closer, _⟩ :: rest => pairsFrom [] rest
  | opener :: outer, ⟨.closer, span⟩ :: rest => (opener, span.start) :: pairsFrom outer rest
  | opened, ⟨.atom _, _⟩ :: rest => pairsFrom opened rest

theorem exists_getElem?_cons {first item : Nat} {rest : List Nat} {P : Nat → Prop} :
    (∃ n, (first :: rest)[n]? = some item ∧ P n) ↔
      (first = item ∧ P 0) ∨ ∃ n, rest[n]? = some item ∧ P (n + 1) := by
  rw [← Nat.or_exists_add_one]
  simp

/-- What the stack finds are the pairs, and the closers of what was open before. -/
theorem mem_pairsFrom_iff {opened : List Nat} {lexemes : List Lexeme} {opener closer : Nat} :
    (opener, closer) ∈ pairsFrom opened lexemes ↔ IsPair lexemes opener closer ∨
      ∃ depth, opened[depth]? = some opener ∧ IsClosedAt depth lexemes closer := by
  -- The opener behind `depth` others on the stack is the one that closes after just these.
  fun_induction pairsFrom opened lexemes with
  | case1 opened => simp [IsPair, IsClosedAt]
  | case2 opened span rest ih =>
    rw [ih, isPair_cons, exists_getElem?_cons, or_assoc, or_left_comm]
    simp only [isClosedAt_opener, true_and]
  | case3 span rest ih => simp [ih, isPair_cons]
  | case4 innermost outer span rest ih =>
    rw [List.mem_cons, ih, isPair_cons, exists_getElem?_cons, or_left_comm]
    simp only [isClosedAt_closer_zero, isClosedAt_closer_succ, Prod.mk.injEq, reduceCtorEq,
      false_and, false_or, eq_comm]
  | case5 opened text span rest ih => simp [ih, isPair_cons, isClosedAt_atom]

/-- The marked pair is the last one that the cursor touches. -/
theorem pair_marksFrom (cursor : Nat) (opened : List Nat) (pair : Option (Nat × Nat))
    (lexemes : List Lexeme) :
    (marksFrom cursor opened pair lexemes).pair =
      ((pairsFrom opened lexemes).filter fun (opener, closer) =>
        touches cursor opener || touches cursor closer).getLast?.or pair := by
  fun_induction marksFrom cursor opened pair lexemes with
  | case1 opened pair => simp [pairsFrom]
  | case2 opened pair span rest ih => simpa only [pairsFrom] using ih
  | case3 pair span rest marks ih => simpa only [pairsFrom] using ih
  | case4 pair span rest opener outer touched ih =>
    rw [ih, pairsFrom, List.filter_cons]
    by_cases isTouched : touched
    · rw [if_pos isTouched, if_pos isTouched, List.getLast?_cons]
      cases List.getLast? _ <;> rfl
    · rw [if_neg isTouched, if_neg isTouched]
  | case5 opened pair text span rest ih => simpa only [pairsFrom] using ih

/-! ### In order -/

section InOrder

/-- Each of the lexemes starts behind the ones before it. -/
def StartInOrder (lexemes : List Lexeme) : Prop :=
  lexemes.Pairwise fun earlier later => earlier.span.start < later.span.start

/-- The lexemes of a text are in the order in which they start. -/
theorem lexemes_startInOrder (source : String) : StartInOrder (lexemes source) := by
  obtain ⟨nonempty, apart⟩ := lexemes_stand source
  refine apart.imp_of_mem fun {earlier _} member _ order => ?_
  exact Nat.lt_of_lt_of_le (nonempty earlier member) order

variable {lexemes : List Lexeme}

theorem StartInOrder.lt {lexeme : Lexeme} {position : Nat}
    (inOrder : StartInOrder (lexeme :: lexemes)) (closer : HasCloser lexemes position) :
    lexeme.span.start < position := by
  obtain ⟨other, member, -, rfl⟩ := closer
  exact List.rel_of_pairwise_cons inOrder member

/-- Pairs are found in the order in which they close. -/
theorem pairwise_pairsFrom {opened : List Nat} (inOrder : StartInOrder lexemes) :
    (pairsFrom opened lexemes).Pairwise fun earlier later => earlier.2 < later.2 := by
  fun_induction pairsFrom opened lexemes with
  | case1 opened => exact .nil
  | case2 opened span rest ih => exact ih inOrder.of_cons
  | case3 span rest ih => exact ih inOrder.of_cons
  | case4 innermost outer span rest ih =>
    refine .cons ?_ (ih inOrder.of_cons)
    rintro ⟨opener, closer⟩ member
    obtain isPair | ⟨_, _, closed⟩ := mem_pairsFrom_iff.mp member
    · exact inOrder.lt isPair.hasCloser
    · exact inOrder.lt closed.hasCloser
  | case5 opened text span rest ih => exact ih inOrder.of_cons

/-- Stray closers belong to no pair, and close nothing of what was open before. -/
theorem mem_straysFrom_iff {depth position : Nat} (inOrder : StartInOrder lexemes) :
    position ∈ straysFrom depth lexemes ↔ HasCloser lexemes position ∧
      (∀ opener, ¬IsPair lexemes opener position) ∧
      ∀ outer < depth, ¬IsClosedAt outer lexemes position := by
  fun_induction straysFrom depth lexemes with
  | case1 depth => simp [HasCloser]
  | case2 depth span rest ih =>
    rw [ih inOrder.of_cons]
    simp only [hasCloser_cons, isPair_cons, isClosedAt_opener, Nat.forall_lt_succ_left,
      reduceCtorEq, false_and, false_or, true_and, not_or, not_and, forall_and, forall_eq',
      and_assoc, and_left_comm]
  | case3 span rest ih =>
    have first : ∀ opener, ¬IsPair rest opener span.start := fun opener isPair =>
      Nat.lt_irrefl _ (inOrder.lt isPair.hasCloser)
    rw [List.mem_cons, ih inOrder.of_cons]
    simp only [hasCloser_cons, isPair_cons, reduceCtorEq, false_and, false_or, true_and,
      Nat.not_lt_zero, false_imp_iff, implies_true, and_true]
    rw [or_and_right, eq_comm]
    refine or_congr_left ⟨?_, And.left⟩
    rintro rfl
    exact ⟨rfl, first⟩
  | case4 depth span rest ih =>
    rw [ih inOrder.of_cons]
    simp only [hasCloser_cons, isPair_cons, isClosedAt_closer_zero, isClosedAt_closer_succ,
      Nat.forall_lt_succ_left, reduceCtorEq, false_and, false_or, true_and]
    -- This closer belongs to an opener before, and those that come later start elsewhere.
    have later : HasCloser rest position → span.start ≠ position :=
      fun closer => Nat.ne_of_lt (inOrder.lt closer)
    constructor
    · rintro ⟨closer, unpaired, unclosed⟩
      exact ⟨.inr closer, unpaired, later closer, unclosed⟩
    · rintro ⟨same | closer, unpaired, other, unclosed⟩
      · exact absurd same other
      · exact ⟨closer, unpaired, unclosed⟩
  | case5 depth text span rest ih =>
    rw [ih inOrder.of_cons]
    simp only [hasCloser_cons, isPair_cons, isClosedAt_atom, reduceCtorEq, false_and, false_or]

/-- Stray closers are found from left to right. -/
theorem pairwise_straysFrom {depth : Nat} (inOrder : StartInOrder lexemes) :
    (straysFrom depth lexemes).Pairwise (· < ·) := by
  fun_induction straysFrom depth lexemes with
  | case1 depth => exact .nil
  | case2 depth span rest ih => exact ih inOrder.of_cons
  | case3 span rest ih =>
    refine .cons (fun position member => ?_) (ih inOrder.of_cons)
    exact inOrder.lt ((mem_straysFrom_iff inOrder.of_cons).mp member).1
  | case4 depth span rest ih => exact ih inOrder.of_cons
  | case5 depth text span rest ih => exact ih inOrder.of_cons

/-- A text is at fault where its first stray closer stands. -/
theorem balanceFrom_eq_stray_iff {depth position : Nat} :
    balanceFrom depth lexemes = .stray position ↔
      (straysFrom depth lexemes).head? = some position := by
  fun_induction straysFrom depth lexemes with
  | case1 depth =>
    rw [balanceFrom]
    split <;> simp
  | case2 depth span rest ih => exact ih
  | case3 span rest ih => simp [balanceFrom]
  | case4 depth span rest ih => exact ih
  | case5 depth text span rest ih => simpa only [balanceFrom] using ih

/-- In a list in order, the last one is the greatest. -/
theorem getLast?_eq_some_iff_of_pairwise {pairs : List (Nat × Nat)} {pair : Nat × Nat}
    (inOrder : pairs.Pairwise fun earlier later => earlier.2 < later.2) :
    pairs.getLast? = some pair ↔
      pair ∈ pairs ∧ ∀ other ∈ pairs, other.2 < pair.2 ∨ other = pair := by
  obtain rfl | ⟨earlier, last, rfl⟩ := List.eq_nil_or_concat' pairs
  · simp
  · rw [List.pairwise_append] at inOrder
    have before : ∀ other ∈ earlier, other.2 < last.2 :=
      fun other member => inOrder.2.2 other member last List.mem_cons_self
    rw [List.getLast?_concat, Option.some.injEq]
    constructor
    · rintro rfl
      refine ⟨List.mem_append_right _ List.mem_cons_self, ?_⟩
      rw [List.forall_mem_append, List.forall_mem_singleton]
      exact ⟨fun other member => .inl (before other member), .inr rfl⟩
    · rintro ⟨member, greatest⟩
      obtain later | same := greatest last (List.mem_append_right _ List.mem_cons_self)
      · obtain inside | inside := List.mem_append.mp member
        · exact absurd later (Nat.lt_asymm (before pair inside))
        · exact (List.mem_singleton.mp inside).symm
      · exact same

end InOrder

/-- **The marked parentheses are a pair and stray closers.** -/
theorem marksMatches_marks (line : String) (cursor : Nat) :
    MarksMatches line cursor (marks line cursor) := by
  have inOrder := lexemes_startInOrder line
  have strays : (marks line cursor).strays = straysFrom 0 (lexemes line) :=
    strays_marksFrom cursor [] none (lexemes line)
  have touched : ∀ pair, pair ∈ (pairsFrom [] (lexemes line)).filter (fun (opener, closer) =>
      touches cursor opener || touches cursor closer) ↔
        IsPairAt cursor (lexemes line) pair.1 pair.2 := by
    rintro ⟨opener, closer⟩
    simp [IsPairAt, mem_pairsFrom_iff, touches, or_assoc]
  have pair := pair_marksFrom cursor [] none (lexemes line)
  rw [Option.or_none] at pair
  refine ⟨?pair, ?noPair, ?strays, ?inOrder, ?reported⟩
  case pair =>
    intro opener closer
    rw [marks, pair, getLast?_eq_some_iff_of_pairwise ((pairwise_pairsFrom inOrder).filter _)]
    simp only [touched, Prod.forall, Prod.mk.injEq]
  case noPair =>
    rw [marks, pair, List.getLast?_eq_none_iff, List.eq_nil_iff_forall_not_mem]
    simp only [touched, Prod.forall]
  case strays =>
    intro position
    rw [strays, mem_straysFrom_iff inOrder]
    simp
  case inOrder =>
    rw [strays]
    exact pairwise_straysFrom inOrder
  case reported =>
    intro position
    rw [strays]
    exact balanceFrom_eq_stray_iff

end SubstLisp
