import SubstLisp.Proofs.Prompt.Marking

/-! # What a highlighted line looks like

A terminal takes control sequences out of what it is sent, and shows the characters behind them in
the colour that they ask for. So it shows all the characters of a highlighted line, the pair at the
cursor in blue, the stray closers in red, and everything else without a colour
(`SubstLisp.marks_and_highlight`).
-/

namespace SubstLisp

/-! ### Terminals -/

/-- The colour behind a control sequence. Of the sequence, this is what stands between the escape
character and the letter at its end. -/
def colourBehind (code : List Char) (colour : Option Colour) : Option Colour :=
  if code = "[0".toList then none
  else if code = "[1;34".toList then some .blue
  else if code = "[1;31".toList then some .red
  else colour

/-- The characters that a terminal shows, with their colours. The latest control sequence asked for
`colour`, or is not over yet and begins with `sequence`, the latest character first. -/
def shownFrom (colour : Option Colour) (sequence : Option (List Char)) :
    List Char → List (Char × Option Colour)
  | [] => []
  | c :: rest =>
    match sequence with
    | none =>
      if c = '\x1b' then shownFrom colour (some []) rest
      else (c, colour) :: shownFrom colour none rest
    | some begun =>
      if c = 'm' then shownFrom (colourBehind begun.reverse colour) none rest
      else shownFrom colour (some (c :: begun)) rest

/-- The characters that a terminal shows, with their colours. -/
def shown (text : String) : List (Char × Option Colour) :=
  shownFrom none none text.toList

/-- The character at the byte `offset` of the line is `c`. -/
def StandsAt (line : String) (c : Char) (offset : Nat) : Prop :=
  ∃ before after, line.toList = before ++ c :: after ∧
    (String.ofList before).utf8ByteSize = offset

/-- A text that looks like the line, with the marked parentheses in their colours. -/
structure Highlights (line : String) (marks : Marks) (text : String) : Prop where
  /-- Without the control sequences, the text is the line. -/
  lossless : (shown text).map Prod.fst = line.toList
  colours : ∀ before c after, line.toList = before ++ c :: after →
    let offset := (String.ofList before).utf8ByteSize
    ∃ colour, (shown text)[before.length]? = some (c, colour) ∧
      (colour = some .blue ↔ ∃ pair ∈ marks.pair, offset = pair.1 ∨ offset = pair.2) ∧
      (colour = some .red ↔ offset ∈ marks.strays)
  pair : ∀ opener closer, marks.pair = some (opener, closer) →
    StandsAt line '(' opener ∧ StandsAt line ')' closer
  strays : ∀ position ∈ marks.strays, StandsAt line ')' position

/-! ### Painted characters -/

/-- The characters of a colour sequence are not shown, but change the colour. -/
theorem shownFrom_sequence (code : List Char) (inside : 'm' ∉ code) (colour : Option Colour)
    (begun rest : List Char) :
    shownFrom colour (some begun) (code ++ 'm' :: rest) =
      shownFrom (colourBehind (begun.reverse ++ code) colour) none rest := by
  induction code generalizing begun with
  | nil => rw [List.nil_append, List.append_nil, shownFrom, if_pos rfl]
  | cons c code ih =>
    rw [List.mem_cons, not_or] at inside
    rw [List.cons_append, shownFrom, if_neg (Ne.symm inside.1), ih inside.2, List.reverse_cons,
      List.append_assoc, List.singleton_append]

/-- A painted character stands between the sequence of its colour and the one that resets it. -/
theorem Colour.exists_code (colour : Colour) (c : Char) :
    ∃ code, 'm' ∉ code ∧ colourBehind code none = some colour ∧
      colour.paint c = '\x1b' :: code ++ 'm' :: c :: "\x1b[0m".toList := by
  cases colour with
  | blue => exact ⟨"[1;34".toList, by decide, rfl, rfl⟩
  | red => exact ⟨"[1;31".toList, by decide, rfl, rfl⟩

/-- A terminal shows a painted character in its colour, and what follows without it. -/
theorem shownFrom_paint {c : Char} (plain : c ≠ '\x1b') (colour : Colour) (rest : List Char) :
    shownFrom none none (colour.paint c ++ rest) =
      (c, some colour) :: shownFrom none none rest := by
  obtain ⟨code, inside, sets, painted⟩ := colour.exists_code c
  have starts := shownFrom_sequence code inside none [] (c :: ("\x1b[0m".toList ++ rest))
  have ends : shownFrom (some colour) none ("\x1b[0m".toList ++ rest) =
      shownFrom none none rest :=
    shownFrom_sequence "[0".toList (by decide) (some colour) [] rest
  rw [List.reverse_nil, List.nil_append, sets, shownFrom, if_neg plain, ends] at starts
  rw [painted, List.cons_append, List.cons_append, shownFrom, if_pos rfl, List.append_assoc]
  exact starts

/-- Characters with the colours of the marks, from the byte `offset` on. -/
def Marks.coloursFrom (marks : Marks) (offset : Nat) : List Char → List (Char × Option Colour)
  | [] => []
  | c :: rest => (c, marks.colour? offset) :: marks.coloursFrom (offset + c.utf8Size) rest

/-- What is shown of a painted text is the text, in the colours of its marks. -/
theorem shownFrom_paintFrom (marks : Marks) (offset : Nat) {cs : List Char}
    (plain : '\x1b' ∉ cs) :
    shownFrom none none (marks.paintFrom offset cs) = marks.coloursFrom offset cs := by
  induction cs generalizing offset with
  | nil => rfl
  | cons c rest ih =>
    rw [List.mem_cons, not_or] at plain
    rw [Marks.paintFrom, Marks.coloursFrom]
    cases marks.colour? offset with
    | none =>
      rw [List.singleton_append, shownFrom, if_neg (Ne.symm plain.1), ih _ plain.2]
    | some colour => rw [shownFrom_paint (Ne.symm plain.1), ih _ plain.2]

/-- Colours leave the characters of a text as they are. -/
theorem Marks.map_fst_coloursFrom (marks : Marks) (offset : Nat) (cs : List Char) :
    (marks.coloursFrom offset cs).map Prod.fst = cs := by
  induction cs generalizing offset with
  | nil => rfl
  | cons c rest ih => rw [coloursFrom, List.map_cons, ih]

theorem Marks.coloursFrom_getElem? (marks : Marks) (offset : Nat) (before : List Char) (c : Char)
    (after : List Char) :
    (marks.coloursFrom offset (before ++ c :: after))[before.length]? =
      some (c, marks.colour? (offset + (String.ofList before).utf8ByteSize)) := by
  induction before generalizing offset with
  | nil => rfl
  | cons first before ih =>
    rw [List.cons_append, coloursFrom, List.length_cons, List.getElem?_cons_succ, ih,
      utf8ByteSize_ofList_cons, Nat.add_assoc]

/-! ### Marked characters -/

section Places

variable {line : String} {offset : Nat}

theorem StandsAt.unique {c d : Char} (first : StandsAt line c offset)
    (second : StandsAt line d offset) : c = d := by
  obtain ⟨before, after, split, size⟩ := first
  obtain ⟨others, later, again, sizeAgain⟩ := second
  have rests := (append_inj_of_utf8ByteSize (split.symm.trans again)
    (size.trans sizeAgain.symm)).2
  exact (List.cons.inj rests).1

/-- A lexeme of one character stands where the character does. -/
theorem standsAt_of_mem_lexemes {lexeme : Lexeme} (member : lexeme ∈ lexemes line) {c : Char}
    (single : lexeme.kind.text.toList = [c]) : StandsAt line c lexeme.span.start := by
  obtain ⟨before, after, split, start, -⟩ := covers_of_mem_lexemes member
  refine ⟨before, after, ?_, start.symm⟩
  rw [split, single, List.append_assoc, List.singleton_append]

/-- Where a closer is among the lexemes, it is in the text. -/
theorem HasCloser.standsAt (closer : HasCloser (lexemes line) offset) :
    StandsAt line ')' offset := by
  obtain ⟨⟨kind, span⟩, member, isCloser, rfl⟩ := closer
  obtain rfl : kind = .closer := isCloser
  exact standsAt_of_mem_lexemes member (by simp [LexemeKind.text])

theorem IsPair.standsAt {opener closer : Nat} (isPair : IsPair (lexemes line) opener closer) :
    StandsAt line '(' opener ∧ StandsAt line ')' closer := by
  refine ⟨?_, isPair.hasCloser.standsAt⟩
  obtain ⟨before, span, rest, split, rfl, -⟩ := isPair
  have member : ⟨.opener, span⟩ ∈ lexemes line := by
    rw [split]
    exact List.mem_append_right _ List.mem_cons_self
  exact standsAt_of_mem_lexemes member (by simp [LexemeKind.text])

end Places

namespace MarksMatches

variable {line : String} {cursor : Nat} {marks : Marks}

theorem isPair (matching : MarksMatches line cursor marks) {opener closer : Nat}
    (marked : marks.pair = some (opener, closer)) : IsPair (lexemes line) opener closer :=
  ((matching.pair opener closer).mp marked).1.1

/-- No stray closer belongs to the marked pair. -/
theorem not_in_pair (matching : MarksMatches line cursor marks) {offset : Nat}
    (stray : offset ∈ marks.strays) : ¬∃ pair ∈ marks.pair, offset = pair.1 ∨ offset = pair.2 := by
  obtain ⟨closer, unpaired⟩ := (matching.strays offset).mp stray
  rintro ⟨⟨opener, last⟩, marked, rfl | rfl⟩
  · have same : '(' = ')' := (matching.isPair marked).standsAt.1.unique closer.standsAt
    cases same
  · exact unpaired opener (matching.isPair marked)

/-- Just the matched parentheses are blue, and just the stray ones are red. -/
theorem colour?_iff (matching : MarksMatches line cursor marks) (offset : Nat) :
    (marks.colour? offset = some .blue ↔
      ∃ pair ∈ marks.pair, offset = pair.1 ∨ offset = pair.2) ∧
    (marks.colour? offset = some .red ↔ offset ∈ marks.strays) := by
  rw [Marks.colour?]
  split
  case isTrue inPair =>
    have marked : ∃ pair ∈ marks.pair, offset = pair.1 ∨ offset = pair.2 := by
      obtain ⟨⟨opener, closer⟩, found, same⟩ := (Option.any_eq_true _ _).mp inPair
      exact ⟨_, found, by simpa using same⟩
    exact ⟨iff_of_true rfl marked,
      iff_of_false nofun fun stray => matching.not_in_pair stray marked⟩
  case isFalse outside =>
    have unmarked : ¬∃ pair ∈ marks.pair, offset = pair.1 ∨ offset = pair.2 := by
      rintro ⟨⟨opener, closer⟩, found, same⟩
      exact outside ((Option.any_eq_true _ _).mpr ⟨_, found, by simpa using same⟩)
    by_cases stray : offset ∈ marks.strays
    · rw [if_pos (List.contains_iff_mem.mpr stray)]
      exact ⟨iff_of_false nofun unmarked, iff_of_true rfl stray⟩
    · rw [if_neg (mt List.contains_iff_mem.mp stray)]
      exact ⟨iff_of_false nofun unmarked, iff_of_false nofun stray⟩

/-- Whoever looks at a painted line sees the line and its marks. -/
theorem highlights (matching : MarksMatches line cursor marks) (plain : '\x1b' ∉ line.toList) :
    Highlights line marks (String.ofList (marks.paintFrom 0 line.toList)) := by
  have whole : shown (String.ofList (marks.paintFrom 0 line.toList)) =
      marks.coloursFrom 0 line.toList := by
    rw [shown, String.toList_ofList, shownFrom_paintFrom marks 0 plain]
  refine ⟨?lossless, ?colours, ?pair, ?strays⟩
  case lossless => rw [whole, Marks.map_fst_coloursFrom]
  case colours =>
    intro before c after split offset
    refine ⟨marks.colour? offset, ?_, matching.colour?_iff offset⟩
    rw [whole, split, Marks.coloursFrom_getElem?, Nat.zero_add]
  case pair => exact fun opener closer marked => (matching.isPair marked).standsAt
  case strays =>
    exact fun position stray => ((matching.strays position).mp stray).1.standsAt

end MarksMatches

/-- **The marked parentheses are a pair and stray closers, and highlighting loses nothing.** -/
theorem marks_and_highlight (line : String) (cursor : Nat) :
    MarksMatches line cursor (marks line cursor) ∧
    ('\x1b' ∉ line.toList → Highlights line (marks line cursor) (highlight line cursor)) :=
  have matching := marksMatches_marks line cursor
  ⟨matching, matching.highlights⟩

/-- Behind a wide character, the cursor touches a closer, and another one is stray. -/
theorem marks_and_highlight_behind_a_wide_character :
    let line := "λ(a)) ;("
    marks line 5 = ⟨some (2, 4), [5]⟩ ∧ '\x1b' ∉ line.toList ∧
    MarksMatches line 5 (marks line 5) ∧
    Highlights line (marks line 5) (highlight line 5) := by
  intro line
  have plain : '\x1b' ∉ line.toList := by decide
  obtain ⟨matching, highlights⟩ := marks_and_highlight line 5
  exact ⟨by decide, plain, matching, highlights plain⟩

end SubstLisp
