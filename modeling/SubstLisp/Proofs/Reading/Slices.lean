import Mathlib.Data.List.Basic
import SubstLisp.Proofs.Reading.Lexing
import SubstLisp.Proofs.Reading.Linearization
import SubstLisp.Proofs.Reading.Trimming

/-! # Expressions as texts of their own

The bytes that an expression takes up are a text themselves. This text is read as the expression and
nothing else, only that its spans are counted from where the text starts
(`SubstLisp.parts_read_alone`). For lexemes that stand next to each other can be cut out of a text
together with the characters they are made of (`SubstLisp.Laid.split`), and an expression goes from
the start of one lexeme to the end of another one.
-/

namespace SubstLisp

/-! ### Cutting lexemes out of a text -/

/-- What follows decides about the end of a comment by its first character, if at all. -/
theorem IsGap.of_append {after more gap : List Char} (isGap : IsGap (after ++ more) gap) :
    IsGap after gap := by
  induction isGap with
  | nil => exact .nil
  | blank c gap blank rest ih => exact .blank c gap blank ih
  | comment line gap inLine ends rest ih =>
    refine .comment line gap inLine (fun c first => ends c ?_) ih
    rw [← List.append_assoc]
    exact List.mem_head?_append_of_mem_head? first

/-- Only the character right behind a lexeme can be part of it. -/
theorem LexemeKind.StandsBefore.of_append {kind : LexemeKind} {after more : List Char}
    (stands : kind.StandsBefore (after ++ more)) : kind.StandsBefore after := by
  cases kind with
  | opener => trivial
  | closer => trivial
  | atom text =>
    exact ⟨stands.1, fun c first => stands.2 c (List.mem_head?_append_of_mem_head? first)⟩

/-- Where the last of some lexemes ends, or else the given byte. -/
def stopFrom (offset : Nat) : List Lexeme → Nat
  | [] => offset
  | lexeme :: rest => stopFrom lexeme.span.stop rest

/-- Lexemes end where the last of them does. -/
theorem stopFrom_concat (offset : Nat) (earlier : List Lexeme) (last : Lexeme) :
    stopFrom offset (earlier ++ [last]) = last.span.stop := by
  induction earlier generalizing offset with
  | nil => rfl
  | cons lexeme rest ih => exact ih lexeme.span.stop

namespace Laid

/-- Characters that consist of some lexemes and then others can be cut where the first ones end. -/
theorem split {offset : Nat} {cs : List Char} {left right : List Lexeme}
    (laid : Laid offset cs (left ++ right)) :
    ∃ part rest, cs = part ++ rest ∧ Laid offset part left ∧
      Laid (offset + (String.ofList part).utf8ByteSize) rest right ∧
      stopFrom offset left = offset + (String.ofList part).utf8ByteSize := by
  induction left generalizing offset cs with
  | nil => exact ⟨[], cs, rfl, .last offset [] .nil, laid, rfl⟩
  | cons lexeme others ih =>
    cases laid with
    | next _ start stop gap rest kind _ isGap stands startEq stopEq later =>
      obtain ⟨part, behind, rfl, cut, remaining, stopsAt⟩ := ih later
      have size : offset + (String.ofList (gap ++ (kind.text.toList ++ part))).utf8ByteSize =
          stop + (String.ofList part).utf8ByteSize := by
        rw [utf8ByteSize_ofList_append, utf8ByteSize_ofList_append, String.ofList_toList, stopEq,
          startEq]
        omega
      rw [← List.append_assoc] at isGap
      refine ⟨gap ++ (kind.text.toList ++ part), behind, by simp only [List.append_assoc],
        .next offset start stop gap part kind others isGap.of_append stands.of_append startEq stopEq
          cut, ?_, ?_⟩
      · rwa [size]
      · rwa [size]

/-- Lexemes that stand next to each other in a text are those of the characters from the first to
the last of them. -/
theorem exists_covers {cs : List Char} {before later after : List Lexeme} {first : Lexeme}
    (laid : Laid 0 cs (before ++ (first :: later ++ after))) :
    ∃ part, Span.Covers ⟨first.span.start, stopFrom 0 (first :: later)⟩ cs part ∧
      Laid first.span.start part (first :: later) := by
  obtain ⟨front, _, rfl, -, laid, -⟩ := laid.split
  obtain ⟨_, back, rfl, cut, -, stopsAt⟩ := laid.split
  cases cut with
  | next _ start stop gap rest kind _ isGap stands startEq stopEq others =>
    -- The gap before the first lexeme stays outside, with the characters in front of it.
    have started : start = (String.ofList (front ++ gap)).utf8ByteSize := by
      rw [utf8ByteSize_ofList_append, startEq, Nat.zero_add]
    refine ⟨kind.text.toList ++ rest,
      ⟨front ++ gap, back, by simp only [List.append_assoc], started, ?_⟩,
      .next start start stop [] rest kind later .nil stands rfl stopEq others⟩
    rw [List.append_assoc, utf8ByteSize_ofList_append, ← Nat.zero_add (String.utf8ByteSize _)]
    exact stopsAt

/-- The lexemes of characters that start at a given byte are those of a text, moved there. -/
theorem map_lexemesOf {offset : Nat} {cs : List Char} {lexemes : List Lexeme}
    (laid : Laid offset cs lexemes) :
    (lexemesOf cs).map (Lexeme.mapSpan (Span.shift offset)) = lexemes := by
  have moved : Scanner.initial.behind offset [] = ⟨offset, [], .gap⟩ := by
    rw [Scanner.behind, Scanner.initial, Nat.zero_add]
    rfl
  have scanned := laid.latestFirst_run []
  rw [← moved, Scanner.run_behind, Scanner.latestFirst_behind, List.append_nil, List.append_nil]
    at scanned
  rw [lexemesOf, List.map_reverse, scanned, List.reverse_reverse]

end Laid

/-! ### The lexemes of an expression -/

namespace Node

/-- The expressions right inside a list. -/
def children : Node → List Node
  | .atom _ _ => []
  | .list children _ => children

/-- The lexemes of a list are its opener, those of its children and its closer. -/
theorem exists_of_pieces_list {children : List Node} {span : Span} {written : List Lexeme}
    (same : written.map Lexeme.piece = (Node.list children span).pieces) :
    ∃ opener inner closer, written = ⟨.opener, opener⟩ :: (inner ++ [⟨.closer, closer⟩]) ∧
      inner.map Lexeme.piece = piecesAll children ∧ opener.start = span.start ∧
      closer.stop = span.stop := by
  rw [pieces, List.map_eq_cons_iff] at same
  obtain ⟨⟨first, opener⟩, others, rfl, opens, same⟩ := same
  obtain ⟨inner, ending, rfl, inside, same⟩ := List.map_eq_append_iff.mp same
  obtain ⟨⟨last, closer⟩, rfl, closes⟩ := List.map_eq_singleton_iff.mp same
  cases first with
  | opener =>
    cases last with
    | closer =>
      exact ⟨opener, inner, closer, rfl, inside, Piece.opener.inj opens, Piece.closer.inj closes⟩
    | _ => cases closes
  | _ => cases opens

/-- An expression goes from the start of its first lexeme to the end of its last one. -/
theorem exists_ends_of_pieces {node : Node} {written : List Lexeme}
    (same : written.map Lexeme.piece = node.pieces) :
    (∃ first later, written = first :: later ∧ first.span.start = node.span.start) ∧
      ∃ earlier last, written = earlier ++ [last] ∧ last.span.stop = node.span.stop := by
  cases node with
  | atom token span =>
    obtain ⟨⟨kind, place⟩, rfl, atom⟩ := List.map_eq_singleton_iff.mp same
    cases kind <;> cases atom
    exact ⟨⟨_, [], rfl, rfl⟩, [], _, rfl, rfl⟩
  | list children span =>
    obtain ⟨opener, inner, closer, rfl, -, start, stop⟩ := exists_of_pieces_list same
    exact ⟨⟨_, _, rfl, start⟩, _ :: inner, _, rfl, stop⟩

theorem piecesAll_eq_flatten (nodes : List Node) :
    piecesAll nodes = (nodes.map pieces).flatten := by
  induction nodes with
  | nil => rfl
  | cons node rest ih => rw [piecesAll, ih, List.map_cons, List.flatten_cons]

/-- The pieces of one of several expressions stand next to each other. -/
theorem pieces_infix_piecesAll {node : Node} {nodes : List Node} (member : node ∈ nodes) :
    node.pieces <:+: piecesAll nodes := by
  rw [piecesAll_eq_flatten]
  exact List.infix_of_mem_flatten (List.mem_map_of_mem member)

/-- The pieces of a part stand next to each other among those of the expression. -/
theorem pieces_infix_of_mem_parts (node : Node) :
    ∀ part ∈ node.parts, part.pieces <:+: node.pieces := by
  induction node using Node.induction with
  | atom token span => simp [parts]
  | list children span ih =>
    refine forall_mem_parts_list.mpr ⟨List.infix_refl _, fun child member part inside => ?_⟩
    have inChildren := (ih child member part inside).trans (pieces_infix_piecesAll member)
    exact inChildren.trans (List.infix_append [_] _ [_])

/-- The lexemes of an expression stand next to each other. -/
theorem exists_lexemes_of_infix {node : Node} {lexemes : List Lexeme}
    (inside : node.pieces <:+: lexemes.map Lexeme.piece) :
    ∃ before written after, lexemes = before ++ (written ++ after) ∧
      written.map Lexeme.piece = node.pieces := by
  obtain ⟨left, right, same⟩ := inside
  rw [List.append_assoc] at same
  obtain ⟨before, _, rfl, -, same⟩ := List.map_eq_append_iff.mp same.symm
  obtain ⟨written, after, rfl, same, -⟩ := List.map_eq_append_iff.mp same
  exact ⟨before, written, after, rfl, same⟩

section Ordered

variable {written : List Lexeme}
  (ordered : written.Pairwise fun earlier later => earlier.span.stop ≤ later.span.start)
include ordered

/-- Expressions whose lexemes follow each other follow each other as well. -/
theorem pairwise_of_piecesAll {nodes : List Node}
    (same : written.map Lexeme.piece = piecesAll nodes) :
    nodes.Pairwise fun earlier later => earlier.span.stop ≤ later.span.start := by
  induction nodes generalizing written with
  | nil => exact .nil
  | cons node rest ih =>
    obtain ⟨own, others, rfl, ofNode, ofRest⟩ := List.map_eq_append_iff.mp same
    obtain ⟨-, behind, across⟩ := List.pairwise_append.mp ordered
    refine .cons (fun later member => ?_) (ih behind ofRest)
    obtain ⟨before, ofLater, after, split, sameLater⟩ :=
      exists_lexemes_of_infix (ofRest ▸ pieces_infix_piecesAll member)
    obtain ⟨-, _, last, ends, stop⟩ := exists_ends_of_pieces ofNode
    obtain ⟨⟨first, _, starts, start⟩, -⟩ := exists_ends_of_pieces sameLater
    rw [← stop, ← start]
    refine across last ?_ first ?_
    · simp [ends]
    · simp [split, starts]

/-- The children of a list are written between its parentheses. -/
theorem children_inside {node : Node}
    (nonempty : ∀ lexeme ∈ written, lexeme.span.start < lexeme.span.stop)
    (same : written.map Lexeme.piece = node.pieces) :
    (∀ child ∈ node.children,
      node.span.start < child.span.start ∧ child.span.stop < node.span.stop) ∧
      node.children.Pairwise fun earlier later => earlier.span.stop ≤ later.span.start := by
  cases node with
  | atom token span => simp [children]
  | list children span =>
    obtain ⟨opener, inner, closer, rfl, inside, start, stop⟩ := exists_of_pieces_list same
    obtain ⟨behindOpener, others⟩ := List.pairwise_cons.mp ordered
    obtain ⟨orderedInside, -, beforeCloser⟩ := List.pairwise_append.mp others
    refine ⟨fun child member => ?_, pairwise_of_piecesAll orderedInside inside⟩
    obtain ⟨before, ofChild, after, rfl, sameChild⟩ :=
      exists_lexemes_of_infix (inside ▸ pieces_infix_piecesAll member)
    obtain ⟨⟨first, _, starts, childStart⟩, earlier, last, ends, childStop⟩ :=
      exists_ends_of_pieces sameChild
    have openerNonempty : opener.start < opener.stop := nonempty _ List.mem_cons_self
    have closerNonempty : closer.start < closer.stop :=
      nonempty ⟨.closer, closer⟩ (by simp)
    have behind : opener.stop ≤ first.span.start := behindOpener first (by simp [starts])
    have ahead : last.span.stop ≤ closer.start :=
      beforeCloser last (by simp [ends]) _ (List.mem_singleton_self _)
    show span.start < child.span.start ∧ child.span.stop < span.stop
    omega

end Ordered

end Node

/-! ### Reading an expression alone -/

/-- The text that the bytes of a span are, if they are a text. -/
def Span.slice? (source : String) (span : Span) : Option String :=
  String.fromUTF8? (source.toUTF8.extract span.start span.stop)

/-- The slice of a text at a span is the part that the span covers. -/
theorem Span.Covers.slice? {source : String} {span : Span} {part : List Char}
    (covers : span.Covers source.toList part) : span.slice? source = some (String.ofList part) := by
  obtain ⟨before, after, whole, start, stop⟩ := covers.exists_texts
  have stopEq : span.stop = (String.ofList (before ++ part)).toByteArray.size := stop
  have cut :
      source.toByteArray.extract span.start span.stop = (String.ofList part).toByteArray := by
    rw [whole, String.toByteArray_append, stopEq, ByteArray.extract_append_size_left,
      String.ofList_append, String.toByteArray_append]
    exact ByteArray.extract_append_eq_right start ByteArray.size_append
  rw [Span.slice?, String.toUTF8_eq_toByteArray, cut, String.fromUTF8?,
    dif_pos (String.ofList part).isValidUTF8]
  rfl

/-- Lexemes that are the pieces of an expression are read as it. -/
theorem readProgram_of_map_lexemes {source : String} {node : Node} {written : List Lexeme}
    {distance : Nat}
    (moved : (lexemes source).map (Lexeme.mapSpan (Span.shift distance)) = written)
    (ordered : written.Pairwise fun earlier later => earlier.span.Encloses later.span)
    (same : written.map Lexeme.piece = node.pieces) :
    ∃ own, readProgram source = .ok [own] ∧ own.mapSpans (Span.shift distance) = node := by
  -- The lexemes close like those of the expression, so they are read as some program.
  have balanced : balance source = .balanced := by
    have bare : (written.map fun lexeme => lexeme.piece.bare) = node.pieces.map Piece.bare := by
      rw [← same, List.map_map]
      rfl
    have closes := balanceFrom_of_pieces bare [] 0
    rw [List.append_nil, ← moved] at closes
    exact (balanceFrom_mapSpan_eq_balanced_iff _).mp closes
  obtain ⟨program, read⟩ := readProgram_isOk_iff_balance.mpr balanced
  have readMoved : readAll 0 written = .ok (program.map (Node.mapSpans (Span.shift distance))) := by
    rw [← moved]
    exact readAll_mapSpans read 0 (Span.shift_merge distance)
  -- Moved, this program has the pieces of the expression, which leave no choice.
  have pieces : Node.piecesAll (program.map (Node.mapSpans (Span.shift distance))) =
      Node.piecesAll [node] := by
    rw [pieces_readAll ordered readMoved, same, Node.piecesAll, Node.piecesAll, List.append_nil]
  obtain ⟨own, rfl, alone⟩ := List.map_eq_singleton_iff.mp (Node.piecesAll_injective pieces)
  exact ⟨own, read, alone⟩

/-- **Every expression is a text of its own.** The bytes of an expression in a program are a text,
and this text is read as the expression alone, with all spans counted from its start. The children
of a list stand inside of it, one behind the other. -/
theorem parts_read_alone {source : String} {program : List Node}
    (read : readProgram source = .ok program) :
    ∀ node ∈ program, ∀ part ∈ node.parts,
      (∃ slice own, part.span.slice? source = some slice ∧ readProgram slice = .ok [own] ∧
        own.mapSpans (Span.shift part.span.start) = part) ∧
      (∀ child ∈ part.children,
        part.span.start < child.span.start ∧ child.span.stop < part.span.stop) ∧
      part.children.Pairwise fun earlier later => earlier.span.stop ≤ later.span.start := by
  intro node member part inside
  have pieces := (node.pieces_infix_of_mem_parts part inside).trans
    (Node.pieces_infix_piecesAll member)
  rw [pieces_readProgram read] at pieces
  obtain ⟨before, written, after, split, same⟩ := Node.exists_lexemes_of_infix pieces
  have sublist : written.Sublist (lexemes source) := by
    rw [split]
    exact (List.sublist_append_left _ _).trans (List.sublist_append_right _ _)
  obtain ⟨nonempty, ordered⟩ := lexemes_stand source
  obtain ⟨⟨first, later, rfl, start⟩, earlier, last, ends, stop⟩ := Node.exists_ends_of_pieces same
  refine ⟨?_, Node.children_inside (ordered.sublist sublist)
    (fun lexeme member => nonempty lexeme (sublist.subset member)) same⟩
  obtain ⟨slice, covers, laid⟩ := (split ▸ laid_lexemes source).exists_covers
  rw [ends, stopFrom_concat, start, stop] at covers
  have moved : (lexemes (String.ofList slice)).map (Lexeme.mapSpan (Span.shift part.span.start)) =
      first :: later := by
    rw [lexemes, String.toList_ofList, ← start]
    exact laid.map_lexemesOf
  obtain ⟨own, alone, equal⟩ :=
    readProgram_of_map_lexemes moved ((lexemes_merge source).sublist sublist) same
  exact ⟨String.ofList slice, own, covers.slice?, alone, equal⟩

/-- A list inside another one, behind characters of two bytes, with a semicolon that starts no
comment. -/
theorem parts_read_alone_behind_wide_characters :
    let part : Node :=
      .list [.atom (.identifier "g") ⟨6, 7⟩, .atom (.string "'é;b") ⟨8, 13⟩] ⟨5, 14⟩
    let node : Node := .list
      [.atom (.identifier "f") ⟨3, 4⟩, part, .atom (.number (.fraction ⟨1, 2⟩)) ⟨19, 22⟩] ⟨2, 23⟩
    let program : List Node :=
      [.atom (.identifier "λ") ⟨0, 2⟩, node, .atom (.identifier "x") ⟨23, 24⟩]
    readProgram "λ(f (g 'é;b) ;)\n 2/4)x" = .ok program ∧ node ∈ program ∧ part ∈ node.parts ∧
    ∃ own, readProgram "(g 'é;b)" = .ok [own] ∧ own.mapSpans (Span.shift 5) = part := by
  intro part node program
  have read : readProgram "λ(f (g 'é;b) ;)\n 2/4)x" = .ok program := readProgram_of_pieces rfl
  have member : node ∈ program := by simp [program]
  have inside : part ∈ node.parts := by simp [node, part, Node.parts, Node.partsAll]
  have bytes : Span.slice? "λ(f (g 'é;b) ;)\n 2/4)x" ⟨5, 14⟩ = some "(g 'é;b)" := by
    decide +kernel
  obtain ⟨⟨slice, own, same, alone, equal⟩, -⟩ := parts_read_alone read node member part inside
  obtain rfl : "(g 'é;b)" = slice := Option.some.inj (bytes.symm.trans same)
  exact ⟨read, member, inside, own, alone, equal⟩

end SubstLisp
