import Mathlib.Data.Set.Insert
import Mathlib.Order.Bounds.Basic
import SubstLisp.Proofs.Reading.Slices

/-! # Depth is nesting

Whoever walks over the lexemes of an expression and counts the lists that are open meets the depth
of the expression, and never more (`SubstLisp.depth_is_nesting`).
-/

namespace SubstLisp

/-- How many lists are open behind some lexemes, if `depth` are open before them. A closer closes
one of them, if there is any. -/
def nestingAfter (depth : Nat) : List Lexeme → Nat
  | [] => depth
  | ⟨.opener, _⟩ :: rest => nestingAfter (depth + 1) rest
  | ⟨.closer, _⟩ :: rest => nestingAfter (depth - 1) rest
  | ⟨.atom _, _⟩ :: rest => nestingAfter depth rest

/-- How many lists are open behind each of some lexemes. An opener opens its own list. -/
def nestings (depth : Nat) (lexemes : List Lexeme) : Set Nat :=
  {nesting | ∃ earlier lexeme later, lexemes = earlier ++ lexeme :: later ∧
    nestingAfter depth (earlier ++ [lexeme]) = nesting}

/-- The lexemes of a text that stand inside of a span. -/
def Span.lexemesIn (span : Span) (source : String) : List Lexeme :=
  (lexemes source).filter fun lexeme =>
    span.start ≤ lexeme.span.start ∧ lexeme.span.stop ≤ span.stop

/-! ### Counting -/

/-- The lists that are open behind the first part are those open before the second one. -/
theorem nestingAfter_append (depth : Nat) (left right : List Lexeme) :
    nestingAfter depth (left ++ right) = nestingAfter (nestingAfter depth left) right := by
  fun_induction nestingAfter depth left with
  | case1 => rfl
  | case2 depth span rest ih => exact ih
  | case3 depth span rest ih => exact ih
  | case4 depth text span rest ih => exact ih

theorem nestingAfter_cons (depth : Nat) (lexeme : Lexeme) (rest : List Lexeme) :
    nestingAfter depth (lexeme :: rest) = nestingAfter (nestingAfter depth [lexeme]) rest :=
  nestingAfter_append depth [lexeme] rest

theorem nestings_nil (depth : Nat) : nestings depth [] = ∅ := by
  simp [nestings]

/-- The first lexeme is counted before the others. -/
theorem nestings_cons (depth : Nat) (lexeme : Lexeme) (rest : List Lexeme) :
    nestings depth (lexeme :: rest) =
      insert (nestingAfter depth [lexeme]) (nestings (nestingAfter depth [lexeme]) rest) := by
  ext nesting
  constructor
  · rintro ⟨earlier, last, later, split, rfl⟩
    cases earlier with
    | nil =>
      obtain ⟨rfl, rfl⟩ := List.cons.inj split
      exact .inl rfl
    | cons first earlier =>
      obtain ⟨rfl, rfl⟩ := List.cons.inj split
      exact .inr ⟨earlier, last, later, rfl, (nestingAfter_cons _ _ _).symm⟩
  · rintro (rfl | ⟨earlier, last, later, rfl, rfl⟩)
    · exact ⟨[], lexeme, rest, rfl, rfl⟩
    · exact ⟨lexeme :: earlier, last, later, rfl, nestingAfter_cons _ _ _⟩

/-- Behind the lexemes of two parts, as many lists are open as behind those of the first, and then
of the second. -/
theorem nestings_append (depth : Nat) (left right : List Lexeme) :
    nestings depth (left ++ right) =
      nestings depth left ∪ nestings (nestingAfter depth left) right := by
  induction left generalizing depth with
  | nil => rw [List.nil_append, nestings_nil, Set.empty_union, nestingAfter]
  | cons lexeme rest ih =>
    rw [List.cons_append, nestings_cons, nestings_cons, ih, ← nestingAfter_cons, Set.insert_union]

theorem nestings_singleton (depth : Nat) (lexeme : Lexeme) :
    nestings depth [lexeme] = {nestingAfter depth [lexeme]} := by
  rw [nestings_cons, nestings_nil, insert_empty_eq]

/-! ### The lexemes of expressions -/

namespace Node

/-- Behind some expressions as many lists are open as before them. On the way more are open, at most
by the depth of the deepest expression, and somewhere by that much. -/
theorem nestings_of_piecesAll {nodes : List Node}
    (each : ∀ node ∈ nodes, ∀ depth written, written.map Lexeme.piece = node.pieces →
      nestingAfter depth written = depth ∧
        IsGreatest (nestings depth written) (depth + node.depth))
    (depth : Nat) {written : List Lexeme} (same : written.map Lexeme.piece = piecesAll nodes) :
    nestingAfter depth written = depth ∧
      IsGreatest (insert depth (nestings depth written)) (depth + depthAll nodes) := by
  -- The number of lists that are open before is the greatest if there are no expressions.
  induction nodes generalizing written with
  | nil =>
    obtain rfl := List.map_eq_nil_iff.mp same
    rw [nestings_nil, insert_empty_eq]
    exact ⟨rfl, isGreatest_singleton⟩
  | cons node rest ih =>
    obtain ⟨own, others, rfl, ofNode, ofRest⟩ := List.map_eq_append_iff.mp same
    rw [List.forall_mem_cons] at each
    obtain ⟨closed, greatest⟩ := each.1 depth own ofNode
    obtain ⟨closedRest, greatestRest⟩ := ih each.2 ofRest
    rw [nestingAfter_append, nestings_append, closed, ← Set.union_insert, depthAll,
      ← Nat.add_max_add_left]
    exact ⟨closedRest, greatest.union greatestRest⟩

/-- An expression closes what it opens, and at most its depth is open inside of it, which is
reached. -/
theorem nestings_of_pieces (node : Node) (depth : Nat) {written : List Lexeme}
    (same : written.map Lexeme.piece = node.pieces) :
    nestingAfter depth written = depth ∧
      IsGreatest (nestings depth written) (depth + node.depth) := by
  induction node using Node.induction generalizing depth written with
  | atom token span =>
    obtain ⟨⟨kind, place⟩, rfl, atom⟩ := List.map_eq_singleton_iff.mp same
    cases kind <;> cases atom
    rw [nestings_singleton]
    exact ⟨rfl, isGreatest_singleton⟩
  | list children span ih =>
    obtain ⟨opener, inner, closer, rfl, inside, -⟩ := exists_of_pieces_list same
    obtain ⟨closed, greatest⟩ :=
      nestings_of_piecesAll (fun child member depth _ => ih child member depth) (depth + 1) inside
    have opened : nestingAfter depth [⟨.opener, opener⟩] = depth + 1 := rfl
    have left : nestingAfter (depth + 1) [⟨.closer, closer⟩] = depth := rfl
    have most : max (depth + 1 + depthAll children) depth = depth + (1 + depthAll children) := by
      omega
    rw [nestingAfter_cons, nestingAfter_append, nestings_cons, nestings_append, opened, closed,
      left, nestings_singleton, left, Node.depth, ← Set.insert_union, ← most]
    exact ⟨rfl, greatest.union isGreatest_singleton⟩

/-- Only atoms have no depth. -/
theorem depth_eq_zero_iff (node : Node) :
    node.depth = 0 ↔ ∃ token span, node = .atom token span := by
  cases node with
  | atom token span => exact iff_of_true rfl ⟨token, span, rfl⟩
  | list children span => simp [depth]

end Node

/-- The lexemes from one to another are those inside of the span that reaches from the start of the
first to the end of the last. -/
theorem Span.lexemesIn_eq {source : String} {span : Span} {before written after : List Lexeme}
    (split : lexemes source = before ++ (written ++ after))
    (starts : ∃ first later, written = first :: later ∧ first.span.start = span.start)
    (stops : ∃ earlier last, written = earlier ++ [last] ∧ last.span.stop = span.stop) :
    span.lexemesIn source = written := by
  obtain ⟨nonempty, ordered⟩ := lexemes_stand source
  rw [split] at nonempty ordered
  simp only [List.forall_mem_append] at nonempty
  obtain ⟨-, ordered, front⟩ := List.pairwise_append.mp ordered
  obtain ⟨ordered, -, back⟩ := List.pairwise_append.mp ordered
  obtain ⟨first, later, whole, start⟩ := starts
  obtain ⟨earlier, last, ends, stop⟩ := stops
  have firstMember : first ∈ written := by simp [whole]
  have lastMember : last ∈ written := by simp [ends]
  have outsideBefore : ∀ lexeme ∈ before, ¬span.start ≤ lexeme.span.start := by
    intro lexeme member
    have apart := front lexeme member first (List.mem_append_left _ firstMember)
    have bytes := nonempty.1 lexeme member
    omega
  have outsideAfter : ∀ lexeme ∈ after, ¬lexeme.span.stop ≤ span.stop := by
    intro lexeme member
    have apart := back last lastMember lexeme member
    have bytes := nonempty.2.2 lexeme member
    omega
  have behindFirst : ∀ lexeme ∈ written, span.start ≤ lexeme.span.start := by
    have bytes := nonempty.2.1 first firstMember
    rw [whole] at ordered ⊢
    refine List.forall_mem_cons.mpr ⟨start.ge, fun lexeme member => ?_⟩
    have apart := List.rel_of_pairwise_cons ordered member
    omega
  have beforeLast : ∀ lexeme ∈ written, lexeme.span.stop ≤ span.stop := by
    have bytes := nonempty.2.1 last lastMember
    rw [ends] at ordered ⊢
    refine List.forall_mem_append.mpr ⟨fun lexeme member => ?_, by simp [stop]⟩
    have apart := (List.pairwise_append.mp ordered).2.2 lexeme member last (by simp)
    omega
  rw [Span.lexemesIn, split, List.filter_append, List.filter_append,
    List.filter_eq_nil_iff.mpr ?before, List.filter_eq_self.mpr ?written,
    List.filter_eq_nil_iff.mpr ?after, List.nil_append, List.append_nil]
  case before =>
    exact fun lexeme member inside => outsideBefore lexeme member (of_decide_eq_true inside).1
  case written =>
    exact fun lexeme member =>
      decide_eq_true ⟨behindFirst lexeme member, beforeLast lexeme member⟩
  case after =>
    exact fun lexeme member inside => outsideAfter lexeme member (of_decide_eq_true inside).2

/-- **Depth is nesting.** The depth of an expression is the greatest number of lists that are open
behind one of its lexemes, among those that it opens. It is zero for atoms and for nothing else. -/
theorem depth_is_nesting {source : String} {program : List Node}
    (read : readProgram source = .ok program) :
    ∀ node ∈ program, ∀ part ∈ node.parts,
      IsGreatest (nestings 0 (part.span.lexemesIn source)) part.depth ∧
        (part.depth = 0 ↔ ∃ token span, part = .atom token span) := by
  intro node member part inside
  have pieces := (node.pieces_infix_of_mem_parts part inside).trans
    (Node.pieces_infix_piecesAll member)
  rw [pieces_readProgram read] at pieces
  obtain ⟨before, written, after, split, same⟩ := Node.exists_lexemes_of_infix pieces
  obtain ⟨starts, stops⟩ := Node.exists_ends_of_pieces same
  have greatest := (part.nestings_of_pieces 0 same).2
  rw [Nat.zero_add] at greatest
  rw [Span.lexemesIn_eq split starts stops]
  exact ⟨greatest, part.depth_eq_zero_iff⟩

/-- A list behind an empty one, with a comment full of openers between them. -/
theorem depth_is_nesting_behind_a_comment :
    let part : Node := .list
      [.atom (.identifier "b") ⟨13, 14⟩, .list [.atom (.identifier "c") ⟨16, 17⟩] ⟨15, 18⟩] ⟨12, 19⟩
    let node : Node := .list [.atom (.identifier "a") ⟨1, 2⟩, .list [] ⟨3, 5⟩, part] ⟨0, 20⟩
    readProgram "(a () ;(((\n (b (c)))" = .ok [node] ∧ node ∈ [node] ∧ part ∈ node.parts ∧
      IsGreatest (nestings 0 (part.span.lexemesIn "(a () ;(((\n (b (c)))")) 2 := by
  intro part node
  have read : readProgram "(a () ;(((\n (b (c)))" = .ok [node] := readProgram_of_pieces rfl
  have member : node ∈ [node] := List.mem_singleton_self node
  have inside : part ∈ node.parts := by simp [node, part, Node.parts, Node.partsAll]
  exact ⟨read, member, inside, (depth_is_nesting read node member part inside).1⟩

end SubstLisp
