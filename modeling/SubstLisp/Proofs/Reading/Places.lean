import SubstLisp.Proofs.Reading.Leaves
import SubstLisp.Proofs.Reading.Lexemes
import SubstLisp.Proofs.Reading.Unbalanced

/-! # Where lexemes and expressions stand

The span of a lexeme holds the characters of the lexeme (`SubstLisp.covers_of_mem_lexemes`), so it
starts and ends between characters. The span of an expression reaches from one lexeme to another, so
it does too: whatever spans of lexemes have, and keep when they are merged, the spans of all
expressions in a program have as well (`SubstLisp.spans_readProgram`). A text that cannot be read is
reported at the span of one of its lexemes.
-/

namespace SubstLisp

/-! ### The characters of a lexeme -/

/-- What adds no bytes to a text adds no characters. -/
theorem eq_nil_of_utf8ByteSize_append {cs more : List Char}
    (size : (String.ofList (cs ++ more)).utf8ByteSize = (String.ofList cs).utf8ByteSize) :
    more = [] := by
  rw [utf8ByteSize_ofList_append, Nat.add_eq_left, String.utf8ByteSize_eq_zero_iff] at size
  simpa using congrArg String.toList size

/-- Where two ways to split a text come to the same byte, they are the same. -/
theorem append_inj_of_utf8ByteSize {left right before after : List Char}
    (same : left ++ right = before ++ after)
    (size : (String.ofList left).utf8ByteSize = (String.ofList before).utf8ByteSize) :
    left = before ∧ right = after := by
  obtain ⟨more, rfl, rfl⟩ | ⟨more, rfl, rfl⟩ := List.append_eq_append_iff.mp same
  · obtain rfl := eq_nil_of_utf8ByteSize_append size.symm
    exact ⟨(List.append_nil _).symm, rfl⟩
  · obtain rfl := eq_nil_of_utf8ByteSize_append size
    exact ⟨List.append_nil _, rfl⟩

/-- The bytes of the span, in a text of these characters, are those of `part`. -/
def Span.Covers (span : Span) (text part : List Char) : Prop :=
  ∃ before after, text = before ++ part ++ after ∧
    span.start = (String.ofList before).utf8ByteSize ∧
    span.stop = (String.ofList (before ++ part)).utf8ByteSize

/-- A span covers the same part of a longer text. -/
theorem Span.Covers.append {span : Span} {text part : List Char} (covers : span.Covers text part)
    (more : List Char) : span.Covers (text ++ more) part := by
  obtain ⟨before, after, rfl, start, stop⟩ := covers
  exact ⟨before, after ++ more, by simp only [List.append_assoc], start, stop⟩

theorem utf8ByteSize_ofList_concat (cs : List Char) (c : Char) :
    (String.ofList (cs ++ [c])).utf8ByteSize = (String.ofList cs).utf8ByteSize + c.utf8Size := by
  rw [utf8ByteSize_ofList_append, ← String.singleton_eq_ofList, String.utf8ByteSize_singleton]

/-- A span that ends where the text does covers all its last characters. -/
theorem Span.Covers.eq_append {span : Span} {text part : List Char} (covers : span.Covers text part)
    (ends : span.stop = (String.ofList text).utf8ByteSize) :
    ∃ before, text = before ++ part ∧ span.start = (String.ofList before).utf8ByteSize := by
  obtain ⟨before, after, rfl, start, stop⟩ := covers
  obtain rfl := eq_nil_of_utf8ByteSize_append (ends.symm.trans stop)
  exact ⟨before, List.append_nil _, start⟩

/-- Each lexeme covers its own characters. -/
def CoverTheirText (text : List Char) (lexemes : List Lexeme) : Prop :=
  ∀ lexeme ∈ lexemes, lexeme.span.Covers text lexeme.kind.text.toList

/-- Lexemes cover the same characters of a longer text. -/
theorem CoverTheirText.append {text : List Char} {lexemes : List Lexeme}
    (cover : CoverTheirText text lexemes) (more : List Char) :
    CoverTheirText (text ++ more) lexemes :=
  fun lexeme member => (cover lexeme member).append more

/-- The next character belongs to the lexeme that it starts or goes on with. -/
theorem CoverTheirText.reads {text : List Char} {c : Char} {before after : List Lexeme}
    (cover : CoverTheirText text before)
    (reads : Scanner.Reads (String.ofList text).utf8ByteSize c before after) :
    CoverTheirText (text ++ [c]) after := by
  have earlier := cover.append [c]
  have single : Span.Covers ⟨(String.ofList text).utf8ByteSize,
      (String.ofList text).utf8ByteSize + c.utf8Size⟩ (text ++ [c]) [c] :=
    ⟨text, [], by rw [List.append_nil], rfl, (utf8ByteSize_ofList_concat text c).symm⟩
  cases reads with
  | skips => exact earlier
  | opens _ opener =>
    subst opener
    exact List.forall_mem_cons.mpr ⟨by simpa [LexemeKind.text] using single, earlier⟩
  | closes _ closer =>
    subst closer
    exact List.forall_mem_cons.mpr ⟨by simpa [LexemeKind.text] using single, earlier⟩
  | begins =>
    refine List.forall_mem_cons.mpr ⟨?_, earlier⟩
    simpa only [LexemeKind.text, String.toList_ofList] using single
  | continues lexemes first letters =>
    -- The atom read last ends where the text does, so the character comes right behind it.
    have latest := cover _ List.mem_cons_self
    simp only [LexemeKind.text, String.toList_ofList] at latest
    obtain ⟨others, rfl, start⟩ := latest.eq_append rfl
    refine List.forall_mem_cons.mpr ⟨?_, (List.forall_mem_cons.mp earlier).2⟩
    simp only [LexemeKind.text, String.toList_ofList, List.reverse_cons]
    refine ⟨others, [], by simp only [List.append_assoc, List.append_nil], start, ?_⟩
    rw [← List.append_assoc]
    exact (utf8ByteSize_ofList_concat _ c).symm

/-- However far a scanner goes, its lexemes cover the characters they are made of. -/
theorem coverTheirText_run {scanner : Scanner} {text : List Char} (cs : List Char)
    (cover : CoverTheirText text scanner.latestFirst)
    (offset : scanner.offset = (String.ofList text).utf8ByteSize) :
    CoverTheirText (text ++ cs) (scanner.run cs).latestFirst := by
  induction cs generalizing scanner text with
  | nil => rwa [List.append_nil]
  | cons c rest ih =>
    have reads := scanner.step_reads c
    rw [offset] at reads
    have next : (scanner.step c).offset = (String.ofList (text ++ [c])).utf8ByteSize := by
      rw [scanner.offset_step, utf8ByteSize_ofList_concat, offset]
    rw [Scanner.run_cons, List.append_cons]
    exact ih (cover.reads reads) next

/-- The span of a lexeme holds the characters of the lexeme. -/
theorem covers_of_mem_lexemes {source : String} {lexeme : Lexeme}
    (member : lexeme ∈ lexemes source) :
    lexeme.span.Covers source.toList lexeme.kind.text.toList := by
  have none : CoverTheirText [] Scanner.initial.latestFirst := fun _ => List.not_mem_nil.elim
  exact coverTheirText_run source.toList none rfl lexeme (List.mem_reverse.mp member)

/-! ### Spans that lie in a text -/

/-- The span takes up some bytes of a text, from between two characters to between two others. -/
structure Span.LiesIn (source : String) (span : Span) : Prop where
  nonempty : span.start < span.stop
  inside : span.stop ≤ source.utf8ByteSize
  start : String.Pos.Raw.IsValid source ⟨span.start⟩
  stop : String.Pos.Raw.IsValid source ⟨span.stop⟩

/-- Two spans in a text, put together, lie in it as well. -/
theorem Span.LiesIn.merge {source : String} {left right : Span} (first : left.LiesIn source)
    (second : right.LiesIn source) : (left.merge right).LiesIn source where
  nonempty := Nat.lt_of_le_of_lt (Nat.min_le_left _ _)
    (Nat.lt_of_lt_of_le first.nonempty (Nat.le_max_left _ _))
  inside := Nat.max_le.mpr ⟨first.inside, second.inside⟩
  start := by
    rcases Nat.le_total left.start right.start with le | le
    · simpa only [Span.merge, Nat.min_eq_left le] using first.start
    · simpa only [Span.merge, Nat.min_eq_right le] using second.start
  stop := by
    rcases Nat.le_total left.stop right.stop with le | le
    · simpa only [Span.merge, Nat.max_eq_right le] using second.stop
    · simpa only [Span.merge, Nat.max_eq_left le] using first.stop

/-- The text that the span is part of, cut at its end. -/
theorem Span.Covers.exists_texts {source : String} {span : Span} {part : List Char}
    (covers : span.Covers source.toList part) :
    ∃ before after, source = String.ofList (before ++ part) ++ String.ofList after ∧
      span.start = (String.ofList before).utf8ByteSize ∧
      span.stop = (String.ofList (before ++ part)).utf8ByteSize := by
  obtain ⟨before, after, split, ends⟩ := covers
  refine ⟨before, after, ?_, ends⟩
  rw [← String.ofList_append, ← split, String.ofList_toList]

/-- A span that covers characters starts and ends between characters of the text. -/
theorem Span.Covers.boundaries {source : String} {span : Span} {part : List Char}
    (covers : span.Covers source.toList part) :
    span.stop ≤ source.utf8ByteSize ∧ String.Pos.Raw.IsValid source ⟨span.start⟩ ∧
      String.Pos.Raw.IsValid source ⟨span.stop⟩ := by
  obtain ⟨before, after, whole, start, stop⟩ := covers.exists_texts
  refine ⟨?_, ?_, ?_⟩
  · rw [whole, String.utf8ByteSize_append, stop]
    exact Nat.le_add_right _ _
  · refine String.Pos.Raw.isValid_iff_exists_append.mpr
      ⟨String.ofList before, String.ofList (part ++ after), ?_, congrArg _ start⟩
    rw [whole, ← String.ofList_append, ← String.ofList_append, List.append_assoc]
  · exact String.Pos.Raw.isValid_iff_exists_append.mpr ⟨_, _, whole, congrArg _ stop⟩

/-- Lexemes lie in their text. -/
theorem liesIn_of_mem_lexemes {source : String} {lexeme : Lexeme}
    (member : lexeme ∈ lexemes source) : lexeme.span.LiesIn source :=
  have boundaries := (covers_of_mem_lexemes member).boundaries
  ⟨(lexemes_stand source).1 lexeme member, boundaries.1, boundaries.2.1, boundaries.2.2⟩

/-! ### The parts of a program -/

mutual
/-- An expression and all expressions inside it. -/
def Node.parts : Node → List Node
  | .atom token span => [.atom token span]
  | .list children span => .list children span :: partsAll children
/-- Several expressions and all expressions inside them. -/
def Node.partsAll : List Node → List Node
  | [] => []
  | node :: rest => node.parts ++ partsAll rest
end

/-- The parts of several expressions are those of each. -/
theorem Node.partsAll_eq_flatMap (nodes : List Node) : partsAll nodes = nodes.flatMap parts := by
  induction nodes with
  | nil => rfl
  | cons node rest ih => rw [partsAll, ih, List.flatMap_cons]

/-- What is true of all parts of a list is true of the list and of all parts of its members. -/
theorem Node.forall_mem_parts_list {P : Node → Prop} {children : List Node} {span : Span} :
    (∀ part ∈ (Node.list children span).parts, P part) ↔
      P (.list children span) ∧ ∀ child ∈ children, ∀ part ∈ child.parts, P part := by
  rw [parts, List.forall_mem_cons, partsAll_eq_flatMap]
  simp only [List.mem_flatMap, forall_exists_index, and_imp]
  exact and_congr_right fun _ =>
    ⟨fun all child member part inside => all part child member inside,
      fun all part child member inside => all child member part inside⟩

section Spans

variable {Q : Span → Prop} (merge : ∀ left right : Span, Q left → Q right → Q (left.merge right))
include merge

/-- A property that merged spans keep is one of all spans in what is read, if the lexemes have it
and the open lists. -/
theorem spans_readInside {stop : Nat} {enclosing : List OpenList} {lexemes : List Lexeme}
    (places : ∀ lexeme ∈ lexemes, Q lexeme.span)
    (opened : ∀ list ∈ enclosing, Q list.opener ∧
      ∀ child ∈ list.children, ∀ part ∈ child.parts, Q part.span) {node : Node}
    (read : (readInside stop enclosing lexemes).result = .ok node) :
    ∀ part ∈ node.parts, Q part.span := by
  have closed : ∀ {list : OpenList} {span : Span}, Q list.opener ∧
      (∀ child ∈ list.children, ∀ part ∈ child.parts, Q part.span) → Q span →
      ∀ part ∈ (Node.list list.children.reverse (list.opener.merge span)).parts, Q part.span := by
    intro list span listed place
    refine Node.forall_mem_parts_list.mpr ⟨merge _ _ listed.1 place, fun child member => ?_⟩
    exact listed.2 child (List.mem_reverse.mp member)
  fun_induction readInside stop enclosing lexemes with
  | case1 => cases read
  | case2 => cases read
  | case3 enclosing span rest ih =>
    rw [List.forall_mem_cons] at places
    exact ih places.2 (List.forall_mem_cons.mpr ⟨⟨places.1, by simp⟩, opened⟩) read
  | case4 span rest => cases read
  | case5 span rest outermost =>
    cases read
    exact closed (opened outermost List.mem_cons_self) (places _ List.mem_cons_self)
  | case6 span rest innermost next outer node ih =>
    rw [List.forall_mem_cons] at places
    simp only [List.forall_mem_cons] at opened
    refine ih places.2 ?_ read
    simp only [List.forall_mem_cons]
    exact ⟨⟨opened.2.1.1, closed opened.1 places.1, opened.2.1.2⟩, opened.2.2⟩
  | case7 text span rest atom =>
    rw [← Except.ok.inj read]
    simpa only [atom, Node.parts, List.mem_singleton, forall_eq, Node.span] using
      places _ List.mem_cons_self
  | case8 text span rest node innermost outer ih =>
    rw [List.forall_mem_cons] at places
    simp only [List.forall_mem_cons] at opened
    refine ih places.2 ?_ read
    simp only [List.forall_mem_cons]
    refine ⟨⟨opened.1.1, ?_, opened.1.2⟩, opened.2⟩
    simpa only [node, Node.parts, List.mem_singleton, forall_eq, Node.span] using places.1

/-- Expressions are as long as lexemes put together, so what merged spans keep is true of
all parts. -/
theorem spans_readAll {stop : Nat} {lexemes : List Lexeme}
    (places : ∀ lexeme ∈ lexemes, Q lexeme.span) {program : List Node}
    (read : readAll stop lexemes = .ok program) :
    ∀ node ∈ program, ∀ part ∈ node.parts, Q part.span := by
  fun_induction readAll stop lexemes generalizing program with
  | case1 =>
    cases read
    simp
  | case2 => cases read
  | case3 => cases read
  | case4 lexeme rest reading node found nodes others ih =>
    cases read
    rw [List.forall_mem_cons]
    refine ⟨spans_readInside merge places (by simp) found, ih (fun lexeme member => ?_) others⟩
    exact places lexeme ((rest_readInside_suffix stop [] _).subset member)

/-- What is true of the spans of a text's lexemes, and kept when spans are merged, is true of its
program. -/
theorem spans_readProgram {source : String} (places : ∀ lexeme ∈ lexemes source, Q lexeme.span)
    {program : List Node} (read : readProgram source = .ok program) :
    ∀ node ∈ program, ∀ part ∈ node.parts, Q part.span :=
  spans_readAll merge places read

end Spans

/-- All expressions in a program stand in its text. -/
theorem liesIn_of_readProgram {source : String} {program : List Node}
    (read : readProgram source = .ok program) :
    ∀ node ∈ program, ∀ part ∈ node.parts, part.span.LiesIn source :=
  spans_readProgram (fun _ _ => Span.LiesIn.merge)
    (fun _ member => liesIn_of_mem_lexemes member) read

/-- A text that cannot be read is reported at one of its lexemes. -/
theorem exists_lexeme_of_readProgram_eq_error {source : String} {cause : ReadError}
    (read : readProgram source = .error cause) :
    ∃ lexeme ∈ lexemes source, lexeme.span = cause.span := by
  cases cause with
  | unexpectedCloser span =>
    have first : IsFirstStray (lexemes source) span := readAll_eq_unexpectedCloser_iff.mp read
    obtain ⟨before, after, split, -⟩ := first
    refine ⟨⟨.closer, span⟩, ?_, rfl⟩
    rw [split]
    exact List.mem_append_right _ List.mem_cons_self
  | missingCloser opener =>
    have last : IsLastOpen (lexemes source) opener := isLastOpen_of_readAll_eq_missingCloser read
    obtain ⟨before, after, split, -⟩ := last
    refine ⟨⟨.opener, opener⟩, ?_, rfl⟩
    rw [split]
    exact List.mem_append_right _ List.mem_cons_self
  | endOfText span => exact absurd read (readAll_ne_endOfText _ _ span)

end SubstLisp
