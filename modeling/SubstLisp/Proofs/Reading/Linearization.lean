import Mathlib.Data.Set.Subsingleton
import SubstLisp.Proofs.Evaluation.Spanless
import SubstLisp.Proofs.Reading.Balance
import SubstLisp.Proofs.Reading.Leaves
import SubstLisp.Proofs.Reading.Lexemes

/-! # Reading inverts linearization

An expression written in one line is a sequence of pieces: the starts and ends of its lists, and its
atoms. Different expressions have different pieces. A text is read as a program if and only if the
pieces of the program are the lexemes of the text (`SubstLisp.readProgram_eq_ok_iff`), and some
program is read if and only if the parentheses of the text balance.
-/

namespace SubstLisp

/-- What stands at one place of an expression that is written in one line. -/
inductive Piece where
  /-- The byte at which a list starts. -/
  | opener (start : Nat)
  /-- The byte at which a list ends. -/
  | closer (stop : Nat)
  | atom (token : Token) (span : Span)

/-- The piece that a lexeme stands for. The text of an atom is classified. -/
def Lexeme.piece : Lexeme → Piece
  | ⟨.opener, span⟩ => .opener span.start
  | ⟨.closer, span⟩ => .closer span.stop
  | ⟨.atom text, span⟩ => .atom (Token.classify text) span

mutual
/-- The pieces of an expression, in the order they are written. -/
def Node.pieces : Node → List Piece
  | .atom token span => [.atom token span]
  | .list children span => .opener span.start :: (piecesAll children ++ [.closer span.stop])
/-- The pieces of several expressions, one after the other. -/
def Node.piecesAll : List Node → List Piece
  | [] => []
  | node :: rest => node.pieces ++ piecesAll rest
end

namespace Node

/-- The pieces of two lists of expressions are those of the first and then those of the second. -/
theorem piecesAll_append (left right : List Node) :
    piecesAll (left ++ right) = piecesAll left ++ piecesAll right := by
  induction left with
  | nil => rfl
  | cons node rest ih => rw [List.cons_append, piecesAll, piecesAll, ih, List.append_assoc]

/-! ### No two expressions have the same pieces -/

/-- The pieces of an expression do not start with the end of a list. -/
theorem pieces_append_ne_closer (node : Node) (stop : Nat) (left right : List Piece) :
    node.pieces ++ left ≠ .closer stop :: right := by
  cases node <;> simp [pieces]

/-- The children of a list can be told from its pieces, if each child can be told from its own. -/
theorem piecesAll_append_closer_inj {left right : List Node}
    (each : ∀ child ∈ left, ∀ other before after,
      child.pieces ++ before = other.pieces ++ after → child = other ∧ before = after)
    {stop end_ : Nat} {before after : List Piece}
    (same : piecesAll left ++ .closer stop :: before = piecesAll right ++ .closer end_ :: after) :
    left = right ∧ stop = end_ ∧ before = after := by
  -- No child starts with a closer, so both lists of children run out at the same place.
  induction left generalizing right with
  | nil =>
    cases right with
    | nil => simpa [piecesAll] using same
    | cons node rest =>
      rw [piecesAll, piecesAll, List.nil_append, List.append_assoc] at same
      exact absurd same.symm (pieces_append_ne_closer _ _ _ _)
  | cons child rest ih =>
    cases right with
    | nil =>
      rw [piecesAll, piecesAll, List.nil_append, List.append_assoc] at same
      exact absurd same (pieces_append_ne_closer _ _ _ _)
    | cons other others =>
      rw [piecesAll, piecesAll, List.append_assoc, List.append_assoc] at same
      rw [List.forall_mem_cons] at each
      obtain ⟨rfl, later⟩ := each.1 _ _ _ same
      obtain ⟨rfl, ends, equal⟩ := ih each.2 later
      exact ⟨rfl, ends, equal⟩

/-- The pieces of an expression show where it ends, and which one it is. -/
theorem pieces_append_inj {m n : Node} {left right : List Piece}
    (same : m.pieces ++ left = n.pieces ++ right) : m = n ∧ left = right := by
  induction m using Node.induction generalizing n left right with
  | atom token span =>
    cases n with
    | atom other otherSpan => simpa [pieces] using same
    | list _ _ => simp [pieces] at same
  | list children span ih =>
    cases n with
    | atom _ _ => simp [pieces] at same
    | list others otherSpan =>
      simp only [pieces, List.cons_append, List.append_assoc, List.nil_append, List.cons.injEq,
        Piece.opener.injEq] at same
      obtain ⟨starts, inside⟩ := same
      obtain ⟨rfl, stops, equal⟩ :=
        piecesAll_append_closer_inj (fun child member _ _ _ => ih child member) inside
      obtain ⟨start, stop⟩ := span
      obtain ⟨otherStart, otherStop⟩ := otherSpan
      cases starts
      cases stops
      exact ⟨rfl, equal⟩

/-- No two programs have the same pieces. -/
theorem piecesAll_injective : Function.Injective piecesAll := by
  intro left right same
  have closed : piecesAll left ++ [.closer 0] = piecesAll right ++ [.closer 0] := by rw [same]
  exact (piecesAll_append_closer_inj (fun _ _ _ _ _ => pieces_append_inj) closed).1

end Node

/-! ### What is read has the lexemes as its pieces -/

/-- The pieces of lists that are still open, as far as they have been read. -/
def OpenList.piecesAll : List OpenList → List Piece
  | [] => []
  | innermost :: outer =>
      piecesAll outer ++ .opener innermost.opener.start :: Node.piecesAll innermost.children.reverse

/-- The later span ends where both together do, and the earlier one starts where they do. -/
def Span.Encloses (earlier later : Span) : Prop :=
  earlier.merge later = ⟨earlier.start, later.stop⟩

section Sound

variable {stop : Nat} {enclosing : List OpenList} {lexemes : List Lexeme}

/-- Nothing is lost when a list is closed, or when a child is put into the list around it. -/
theorem pieces_readInside {node : Node}
    (before : ∀ lexeme ∈ lexemes, ∀ opener ∈ enclosing.map OpenList.opener,
      opener.Encloses lexeme.span)
    (ordered : lexemes.Pairwise fun earlier later => earlier.span.Encloses later.span)
    (read : (readInside stop enclosing lexemes).result = .ok node) :
    OpenList.piecesAll enclosing ++ lexemes.map Lexeme.piece =
      node.pieces ++ (readInside stop enclosing lexemes).rest.map Lexeme.piece := by
  -- The open lists hold what has been read so far. A closer turns the innermost one into a child.
  fun_induction readInside stop enclosing lexemes with
  | case1 => cases read
  | case2 => cases read
  | case3 enclosing span rest ih =>
    rw [List.pairwise_cons] at ordered
    rw [List.forall_mem_cons] at before
    have opened : ∀ lexeme ∈ rest, ∀ opener ∈ span :: enclosing.map OpenList.opener,
        opener.Encloses lexeme.span := fun lexeme inside =>
      List.forall_mem_cons.mpr ⟨ordered.1 lexeme inside, before.2 lexeme inside⟩
    rw [← ih opened ordered.2 read]
    simp [OpenList.piecesAll, Node.piecesAll, Lexeme.piece]
  | case4 span rest => cases read
  | case5 span rest outermost =>
    cases read
    have encloses : outermost.opener.merge span = ⟨outermost.opener.start, span.stop⟩ :=
      before _ List.mem_cons_self _ List.mem_cons_self
    simp [OpenList.piecesAll, Node.pieces, Lexeme.piece, encloses]
  | case6 span rest innermost next outer inner ih =>
    rw [List.pairwise_cons] at ordered
    rw [List.forall_mem_cons] at before
    have encloses : innermost.opener.merge span = ⟨innermost.opener.start, span.stop⟩ :=
      before.1 _ List.mem_cons_self
    have closed : ∀ lexeme ∈ rest, ∀ opener ∈ next.opener :: outer.map OpenList.opener,
        opener.Encloses lexeme.span := fun lexeme inside =>
      (List.forall_mem_cons.mp (before.2 lexeme inside)).2
    rw [← ih closed ordered.2 read]
    simp [OpenList.piecesAll, Node.piecesAll_append, Node.piecesAll, Node.pieces, Lexeme.piece,
      inner, encloses]
  | case7 text span rest atom =>
    rw [← Except.ok.inj read]
    rfl
  | case8 text span rest atom innermost outer ih =>
    rw [List.pairwise_cons] at ordered
    rw [List.forall_mem_cons] at before
    rw [← ih before.2 ordered.2 read]
    simp [OpenList.piecesAll, Node.piecesAll_append, Node.piecesAll, Node.pieces, Lexeme.piece,
      atom]

/-- A program consists of the pieces of its lexemes. -/
theorem pieces_readAll {program : List Node}
    (ordered : lexemes.Pairwise fun earlier later => earlier.span.Encloses later.span)
    (read : readAll stop lexemes = .ok program) :
    Node.piecesAll program = lexemes.map Lexeme.piece := by
  fun_induction readAll stop lexemes generalizing program with
  | case1 =>
    cases read
    rfl
  | case2 => cases read
  | case3 => cases read
  | case4 lexeme rest reading node found nodes others =>
    rename_i ih
    cases read
    have first : (lexeme :: rest).map Lexeme.piece = node.pieces ++ reading.rest.map Lexeme.piece :=
      pieces_readInside (by simp) ordered found
    have suffix := (rest_readInside_suffix stop [] (lexeme :: rest)).sublist
    rw [first, Node.piecesAll, ih (ordered.sublist suffix) others]

end Sound

/-- The pieces of the program that is read from a text are the lexemes of the text. -/
theorem pieces_readProgram {source : String} {program : List Node}
    (read : readProgram source = .ok program) :
    Node.piecesAll program = (lexemes source).map Lexeme.piece :=
  pieces_readAll (lexemes_merge source) read

/-! ### Lexemes that are the pieces of a program can be read -/

/-- A piece without the place where it stands. -/
def Piece.bare : Piece → Piece
  | .opener _ => .opener 0
  | .closer _ => .closer 0
  | .atom token _ => .atom token .nowhere

/-- Pieces lose their spans expression by expression. -/
theorem Node.piecesAll_withoutSpans {nodes : List Node}
    (each : ∀ node ∈ nodes, node.withoutSpans.pieces = node.pieces.map Piece.bare) :
    piecesAll (nodes.map withoutSpans) = (piecesAll nodes).map Piece.bare := by
  induction nodes with
  | nil => rfl
  | cons node rest ih =>
    rw [List.forall_mem_cons] at each
    rw [List.map_cons, piecesAll, piecesAll, List.map_append, each.1, ih each.2]

/-- An expression without its spans has the same pieces without theirs. -/
theorem Node.pieces_withoutSpans (node : Node) :
    node.withoutSpans.pieces = node.pieces.map Piece.bare := by
  induction node using Node.induction with
  | atom token span => rfl
  | list children span ih =>
    have inside : piecesAll (mapSpansAll (fun _ => .nowhere) children) =
        (piecesAll children).map Piece.bare := by
      rw [mapSpansAll_eq_map]
      exact piecesAll_withoutSpans ih
    simp only [withoutSpans, mapSpans, pieces, inside, List.map_cons, List.map_append, List.map_nil]
    rfl

/-- Lexemes that are the pieces of some expressions open and close the same lists. -/
theorem balanceFrom_of_piecesAll {nodes : List Node}
    (each : ∀ node ∈ nodes, ∀ (written rest : List Lexeme) (depth : Nat),
      (written.map fun lexeme => lexeme.piece.bare) = node.pieces.map Piece.bare →
      balanceFrom depth (written ++ rest) = balanceFrom depth rest)
    {written : List Lexeme}
    (same : (written.map fun lexeme => lexeme.piece.bare) = (Node.piecesAll nodes).map Piece.bare)
    (rest : List Lexeme) (depth : Nat) :
    balanceFrom depth (written ++ rest) = balanceFrom depth rest := by
  induction nodes generalizing written with
  | nil =>
    rw [Node.piecesAll, List.map_nil, List.map_eq_nil_iff] at same
    rw [same, List.nil_append]
  | cons node others ih =>
    rw [Node.piecesAll, List.map_append, List.map_eq_append_iff] at same
    obtain ⟨first, later, rfl, sameFirst, sameLater⟩ := same
    rw [List.forall_mem_cons] at each
    rw [List.append_assoc, each.1 _ _ _ sameFirst, ih each.2 sameLater]

/-- The lexemes of an expression close what they open, so that the balance does not see them. -/
theorem balanceFrom_of_pieces {node : Node} {written : List Lexeme}
    (same : (written.map fun lexeme => lexeme.piece.bare) = node.pieces.map Piece.bare)
    (rest : List Lexeme) (depth : Nat) :
    balanceFrom depth (written ++ rest) = balanceFrom depth rest := by
  induction node using Node.induction generalizing written rest depth with
  | atom token span =>
    rw [Node.pieces, List.map_singleton, List.map_eq_singleton_iff] at same
    obtain ⟨⟨kind, place⟩, rfl, equal⟩ := same
    cases kind with
    | atom text => rfl
    | _ => cases equal
  | list children span ih =>
    rw [Node.pieces, List.map_cons, List.map_append, List.map_singleton,
      List.map_eq_cons_iff] at same
    obtain ⟨⟨first, start⟩, others, rfl, opens, same⟩ := same
    rw [List.map_eq_append_iff] at same
    obtain ⟨inner, ending, rfl, sameInner, closes⟩ := same
    rw [List.map_eq_singleton_iff] at closes
    obtain ⟨⟨last, place⟩, rfl, closes⟩ := closes
    have inside := balanceFrom_of_piecesAll
      (fun child member written rest depth same => ih child member same rest depth) sameInner
      (⟨.closer, place⟩ :: rest) (depth + 1)
    cases first with
    | opener =>
      cases last with
      | closer =>
        rw [List.cons_append, List.append_assoc, balanceFrom]
        exact inside
      | _ => cases closes
    | _ => cases opens

/-- Lexemes that are the pieces of a program, wherever they stand, are read as this program. -/
theorem readProgram_of_bare_pieces {source : String} {program : List Node}
    (same : ((lexemes source).map fun lexeme => lexeme.piece.bare) =
      (Node.piecesAll program).map Piece.bare) :
    ∃ read, readProgram source = .ok read ∧
      read.map Node.withoutSpans = program.map Node.withoutSpans := by
  have balanced : balance source = .balanced := by
    have closes := balanceFrom_of_piecesAll
      (fun node _ written rest depth same => balanceFrom_of_pieces same rest depth) same [] 0
    rwa [List.append_nil] at closes
  obtain ⟨read, found⟩ := readProgram_isOk_iff_balance.mpr balanced
  refine ⟨read, found, Node.piecesAll_injective ?_⟩
  have pieces := congrArg (List.map Piece.bare) (pieces_readProgram found)
  rw [List.map_map] at pieces
  rw [Node.piecesAll_withoutSpans fun node _ => node.pieces_withoutSpans,
    Node.piecesAll_withoutSpans fun node _ => node.pieces_withoutSpans, pieces, ← same]
  rfl

/-- Lexemes that are the pieces of a program are read as this program. -/
theorem readProgram_of_pieces {source : String} {program : List Node}
    (pieces : Node.piecesAll program = (lexemes source).map Lexeme.piece) :
    readProgram source = .ok program := by
  have bare := congrArg (List.map Piece.bare) pieces
  rw [List.map_map] at bare
  obtain ⟨read, found, -⟩ := readProgram_of_bare_pieces bare.symm
  rwa [Node.piecesAll_injective (pieces.trans (pieces_readProgram found).symm)]

/-- **Reading inverts linearization.** The program that a text holds is the one whose pieces are the
lexemes of the text, with every atom classified. There is at most one such program, and there is one
if and only if no initial part of the lexemes closes more lists than it opens, and all lists that
are opened are closed. -/
theorem readProgram_eq_ok_iff (source : String) :
    (∀ program, readProgram source = .ok program ↔
      Node.piecesAll program = (lexemes source).map Lexeme.piece) ∧
    {program | Node.piecesAll program = (lexemes source).map Lexeme.piece}.Subsingleton ∧
    ((∃ program, readProgram source = .ok program) ↔
      (∀ initial, initial <+: lexemes source → closers initial ≤ openers initial) ∧
        closers (lexemes source) = openers (lexemes source)) := by
  refine ⟨fun program => ⟨pieces_readProgram, readProgram_of_pieces⟩, ?_, ?_⟩
  · intro program first other second
    exact Node.piecesAll_injective (first.trans second.symm)
  · have counts := @balanceFrom_eq_balanced_iff 0 (lexemes source)
    rw [readProgram_isOk_iff_balance, balance, counts, ClosesFrom]
    simp only [Nat.zero_add]

example : (lexemes "(f 6/4) ; g").map Lexeme.piece =
    [.opener 0, .atom (.identifier "f") ⟨1, 2⟩, .atom (.number (.fraction ⟨3, 2⟩)) ⟨3, 6⟩,
      .closer 7] := rfl

end SubstLisp
