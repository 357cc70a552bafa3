import SubstLisp.Form.Reading
import SubstLisp.Proofs.Evaluation.Spans
import SubstLisp.Proofs.Reading.Scanning

/-! # Reading two texts as one

An expression that could be read is read again when more lexemes follow it, and also when all its
lexemes are moved. So the program of two texts with a line break between them is that of the first
text and then that of the second, moved (`SubstLisp.readProgram_join`).
-/

namespace SubstLisp

def OpenList.mapSpans (f : Span → Span) (list : OpenList) : OpenList where
  opener := f list.opener
  children := list.children.map (Node.mapSpans f)

section Inside

variable {stop : Nat} {enclosing : List OpenList} {lexemes : List Lexeme} {node : Node}
  (read : (readInside stop enclosing lexemes).result = .ok node) (otherStop : Nat)
include read

/-- What follows an expression has no part in reading it, and nor has the end of the text. -/
theorem readInside_append (more : List Lexeme) :
    readInside otherStop enclosing (lexemes ++ more) =
      ⟨.ok node, (readInside stop enclosing lexemes).rest ++ more⟩ := by
  fun_induction readInside stop enclosing lexemes with
  | case1 => cases read
  | case2 => cases read
  | case3 enclosing span rest ih => exact ih read
  | case4 span rest => cases read
  | case5 span rest outermost =>
    cases read
    rfl
  | case6 span rest innermost next outer inner ih => exact ih read
  | case7 text span rest atom =>
    rw [← Except.ok.inj read]
    rfl
  | case8 text span rest atom innermost outer ih => exact ih read

/-- Moved lexemes are read as the moved expression. -/
theorem readInside_mapSpans {f : Span → Span}
    (merge : ∀ left right : Span, f (left.merge right) = (f left).merge (f right)) :
    readInside otherStop (enclosing.map (OpenList.mapSpans f)) (lexemes.map (Lexeme.mapSpan f)) =
      ⟨.ok (node.mapSpans f),
        (readInside stop enclosing lexemes).rest.map (Lexeme.mapSpan f)⟩ := by
  have closed : ∀ (list : OpenList) (span : Span),
      (Node.list list.children.reverse (list.opener.merge span)).mapSpans f =
        .list (list.mapSpans f).children.reverse ((list.mapSpans f).opener.merge (f span)) := by
    intro list span
    rw [Node.mapSpans, Node.mapSpansAll_eq_map, List.map_reverse, merge]
    rfl
  fun_induction readInside stop enclosing lexemes with
  | case1 => cases read
  | case2 => cases read
  | case3 enclosing span rest ih => exact ih read
  | case4 span rest => cases read
  | case5 span rest outermost =>
    cases read
    rw [closed]
    rfl
  | case6 span rest innermost next outer inner ih =>
    rw [← ih read]
    simp only [List.map_cons, Lexeme.mapSpan, readInside, ← closed]
    rfl
  | case7 text span rest atom =>
    rw [← Except.ok.inj read]
    rfl
  | case8 text span rest atom innermost outer ih =>
    rw [← ih read]
    rfl

end Inside

section All

variable {stop : Nat} {lexemes : List Lexeme} {program : List Node}
  (read : readAll stop lexemes = .ok program) (otherStop : Nat)
include read

/-- Behind a whole program, reading starts anew. -/
theorem readAll_append (more : List Lexeme) :
    readAll otherStop (lexemes ++ more) = (readAll otherStop more).map (program ++ ·) := by
  fun_induction readAll stop lexemes generalizing program with
  | case1 =>
    cases read
    rw [List.nil_append]
    cases readAll otherStop more <;> rfl
  | case2 => cases read
  | case3 => cases read
  | case4 lexeme rest reading node found nodes others =>
    rename_i ih
    cases read
    have first : readInside otherStop [] (lexeme :: (rest ++ more)) =
        ⟨.ok node, reading.rest ++ more⟩ := readInside_append found otherStop more
    rw [List.cons_append, readAll, first]
    simp only [ih others]
    cases readAll otherStop more <;> rfl

/-- A program whose lexemes are moved is read as the program with its spans moved. -/
theorem readAll_mapSpans {f : Span → Span}
    (merge : ∀ left right : Span, f (left.merge right) = (f left).merge (f right)) :
    readAll otherStop (lexemes.map (Lexeme.mapSpan f)) = .ok (program.map (Node.mapSpans f)) := by
  fun_induction readAll stop lexemes generalizing program with
  | case1 =>
    cases read
    rw [List.map_nil, readAll, List.map_nil]
  | case2 => cases read
  | case3 => cases read
  | case4 lexeme rest reading node found nodes others =>
    rename_i ih
    cases read
    have first : readInside otherStop [] (lexeme.mapSpan f :: rest.map (Lexeme.mapSpan f)) =
        ⟨.ok (node.mapSpans f), reading.rest.map (Lexeme.mapSpan f)⟩ :=
      readInside_mapSpans found otherStop merge
    rw [List.map_cons, readAll, first]
    simp only [ih others, List.map_cons]

end All

/-- It does not matter whether spans are merged before or after a shift. -/
theorem Span.shift_merge (distance : Nat) (left right : Span) :
    (left.merge right).shift distance = (left.shift distance).merge (right.shift distance) := by
  simp only [merge, shift, Nat.add_min_add_right, Nat.add_max_add_right]

/-- The program of two texts, with a line break between them. -/
theorem readProgram_join {first second : String} {program later : List Node}
    (readFirst : readProgram first = .ok program) (readSecond : readProgram second = .ok later) :
    readProgram (first ++ "\n" ++ second) =
      .ok (program ++ later.map (Node.mapSpans (Span.shift (first.utf8ByteSize + 1)))) := by
  let f := Span.shift (first.utf8ByteSize + 1)
  have joined : ∀ stop, readAll stop (lexemes (first ++ "\n" ++ second)) =
      .ok (program ++ later.map (Node.mapSpans f)) := by
    intro stop
    have moved : readAll stop ((lexemes second).map (Lexeme.mapSpan f)) =
        .ok (later.map (Node.mapSpans f)) :=
      readAll_mapSpans readSecond stop (Span.shift_merge _)
    have whole : readAll stop (lexemes first ++ (lexemes second).map (Lexeme.mapSpan f)) =
        (readAll stop ((lexemes second).map (Lexeme.mapSpan f))).map (program ++ ·) :=
      readAll_append readFirst stop _
    rw [lexemes_join, whole, moved]
    rfl
  exact joined _

end SubstLisp
