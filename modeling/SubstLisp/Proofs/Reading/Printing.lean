import SubstLisp.Proofs.Reading.Legibility
import SubstLisp.Proofs.Reading.Linearization

/-! # Reading what was written

Expressions are written so that they can be read: blanks keep the atoms apart, and the parentheses
are those of the lists. If every token of a program is legible, then the text of the program holds
the pieces of the program. So a program that was read is read again from its text, whichever blanks
stand between its expressions (`SubstLisp.readProgram_joinTexts`).
-/

namespace SubstLisp

/-- Texts one after the other. The blank before the one at place `n + 1` is `gap n`. -/
def joinTexts (gap : Nat → Char) : List String → String
  | [] => ""
  | [text] => text
  | text :: rest =>
      text ++ String.singleton (gap 0) ++ joinTexts (fun place => gap (place + 1)) rest

/-- The members of a list are written with spaces between them. -/
theorem Node.textAll_eq_joinTexts (nodes : List Node) :
    textAll nodes = joinTexts (fun _ => ' ') (nodes.map text) := by
  induction nodes with
  | nil => rfl
  | cons node rest ih =>
    cases rest with
    | nil => rfl
    | cons next later =>
      rw [textAll, ih]
      · rfl
      · exact List.cons_ne_nil _ _

/-! ### What the scanner makes of a text -/

namespace Scanner

/-- The pieces that have been read so far, the latest one first. -/
def bareLatestFirst (scanner : Scanner) : List Piece :=
  scanner.latestFirst.map fun lexeme => lexeme.piece.bare

variable {scanner : Scanner}

/-- Between atoms, an opener is a piece. -/
theorem step_opener (between : scanner.pending = .gap) :
    (scanner.step '(').pending = .gap ∧
      (scanner.step '(').bareLatestFirst = .opener 0 :: scanner.bareLatestFirst := by
  obtain ⟨offset, finished, pending⟩ := scanner
  cases between
  exact ⟨rfl, rfl⟩

/-- Outside of a comment, a closer is a piece and ends an atom. -/
theorem step_closer (outside : scanner.pending ≠ .comment) :
    (scanner.step ')').pending = .gap ∧
      (scanner.step ')').bareLatestFirst = .closer 0 :: scanner.bareLatestFirst := by
  obtain ⟨offset, finished, pending⟩ := scanner
  cases pending with
  | comment => exact absurd rfl outside
  | gap => exact ⟨rfl, rfl⟩
  | atom first letters => exact ⟨rfl, rfl⟩

/-- A blank ends an atom. -/
theorem step_blank (outside : scanner.pending ≠ .comment) {c : Char} (blank : isBlank c) :
    (scanner.step c).pending = .gap ∧
      (scanner.step c).bareLatestFirst = scanner.bareLatestFirst := by
  have stepped : scanner.step c =
      ⟨scanner.offset + c.utf8Size, scanner.latestFirst, .gap⟩ := by
    obtain ⟨offset, finished, pending⟩ := scanner
    cases pending with
    | comment => exact absurd rfl outside
    | gap => exact start_blank blank offset finished
    | atom first letters =>
      have ends : endsAtom c = true := by simp [endsAtom, blank]
      simp only [step, ends, ↓reduceIte]
      exact start_blank blank offset _
  rw [stepped]
  exact ⟨rfl, rfl⟩

/-- The characters of an atom are read as one atom. -/
theorem run_atom {cs : List Char} (isAtom : IsAtomText cs) (between : scanner.pending = .gap) :
    (scanner.run cs).pending ≠ .comment ∧
      (scanner.run cs).bareLatestFirst =
        .atom (Token.classify (String.ofList cs)) .nowhere :: scanner.bareLatestFirst := by
  obtain ⟨offset, finished, pending⟩ := scanner
  cases between
  rw [run_atomText isAtom]
  refine ⟨Pending.noConfusion, ?_⟩
  simp [bareLatestFirst, latestFirst, Lexeme.piece, Piece.bare]

end Scanner

/-! ### Texts that hold the pieces of a program -/

/-- Between two lexemes, the characters are read as the given pieces. No comment is left open. -/
def Writes (cs : List Char) (pieces : List Piece) : Prop :=
  ∀ scanner : Scanner, scanner.pending = .gap →
    (scanner.run cs).pending ≠ .comment ∧
      (scanner.run cs).bareLatestFirst = pieces.reverse ++ scanner.bareLatestFirst

namespace Writes

theorem nil : Writes [] [] := by
  intro scanner between
  refine ⟨?_, rfl⟩
  rw [Scanner.run_nil, between]
  exact Pending.noConfusion

/-- A legible token writes itself. -/
theorem token {token : Token} (legible : token.Legible) :
    Writes token.text.toList [.atom token .nowhere] := by
  intro scanner between
  have read := Scanner.run_atom legible.isAtom between
  rwa [String.ofList_toList, legible.reads] at read

/-- A blank keeps two texts apart. -/
theorem blank {left right : List Char} {before after : List Piece} (first : Writes left before)
    {c : Char} (blank : isBlank c) (second : Writes right after) :
    Writes (left ++ c :: right) (before ++ after) := by
  intro scanner between
  obtain ⟨outside, read⟩ := first scanner between
  obtain ⟨apart, same⟩ := Scanner.step_blank outside blank
  obtain ⟨last, readLast⟩ := second _ apart
  rw [Scanner.run_append, Scanner.run_cons]
  refine ⟨last, ?_⟩
  rw [readLast, same, read, List.reverse_append, List.append_assoc]

/-- A text between parentheses is read as a list. -/
theorem parentheses {cs : List Char} {pieces : List Piece} (inside : Writes cs pieces) :
    Writes ('(' :: (cs ++ [')'])) (.opener 0 :: (pieces ++ [.closer 0])) := by
  intro scanner between
  obtain ⟨opened, opener⟩ := Scanner.step_opener between
  obtain ⟨outside, read⟩ := inside _ opened
  obtain ⟨closed, closer⟩ := Scanner.step_closer outside
  rw [Scanner.run_cons, Scanner.run_append, Scanner.run_cons, Scanner.run_nil]
  refine ⟨?_, ?_⟩
  · rw [closed]
    exact Pending.noConfusion
  · rw [closer, read, opener]
    simp

/-- Expressions with blanks between them write their pieces one after the other. -/
theorem joinTexts {gap : Nat → Char} (blank : ∀ place, isBlank (gap place)) {nodes : List Node}
    (each : ∀ node ∈ nodes, Writes node.text.toList (node.pieces.map Piece.bare)) :
    Writes (joinTexts gap (nodes.map Node.text)).toList
      ((Node.piecesAll nodes).map Piece.bare) := by
  induction nodes generalizing gap with
  | nil => exact .nil
  | cons node rest ih =>
    rw [List.forall_mem_cons] at each
    cases rest with
    | nil => simpa [Node.piecesAll, SubstLisp.joinTexts] using each.1
    | cons next later =>
      have rest := ih (fun place => blank (place + 1)) each.2
      rw [Node.piecesAll, List.map_append]
      simpa [SubstLisp.joinTexts] using each.1.blank (blank 0) rest

/-- The text of an expression holds its pieces. -/
theorem text {node : Node} (legible : ∀ token ∈ node.leaves, token.Legible) :
    Writes node.text.toList (node.pieces.map Piece.bare) := by
  induction node using Node.induction with
  | atom token span => exact .token (legible token List.mem_cons_self)
  | list children span ih =>
    have each : ∀ child ∈ children, Writes child.text.toList (child.pieces.map Piece.bare) := by
      intro child member
      refine ih child member fun token occurs => legible token ?_
      rw [Node.leaves, Node.leavesAll_eq_flatMap]
      exact List.mem_flatMap.mpr ⟨child, member, occurs⟩
    -- Children are written with spaces between them, which are blanks like any others.
    have inside := (@joinTexts (fun _ => ' ') (fun _ => rfl) _ each).parentheses
    simpa [Node.text, Node.textAll_eq_joinTexts, Node.pieces, Piece.bare] using inside

end Writes

/-- A program whose tokens are legible is read from its text. -/
theorem readProgram_of_legible {gap : Nat → Char} (blank : ∀ place, isBlank (gap place))
    {program : List Node} (legible : ∀ node ∈ program, ∀ token ∈ node.leaves, token.Legible) :
    ∃ read, readProgram (joinTexts gap (program.map Node.text)) = .ok read ∧
      read.map Node.withoutSpans = program.map Node.withoutSpans := by
  have writes := Writes.joinTexts blank fun node member => Writes.text (legible node member)
  obtain ⟨-, read⟩ := writes Scanner.initial rfl
  refine readProgram_of_bare_pieces ?_
  rw [lexemes, lexemesOf, List.map_reverse]
  change (Scanner.bareLatestFirst _).reverse = _
  rw [read, List.reverse_append, List.reverse_reverse]
  rfl

/-- **Reading undoes writing.** A program that was read from some text, and that has no
floating-point number in it, is read again from the texts of its expressions, with one blank
between each of them and the next. -/
theorem readProgram_joinTexts {source : String} {program : List Node}
    (read : readProgram source = .ok program)
    (isExact : ∀ node ∈ program, ∀ token ∈ node.leaves, token.IsExact)
    {gap : Nat → Char} (blank : ∀ place, isBlank (gap place)) :
    ∃ again, readProgram (joinTexts gap (program.map Node.text)) = .ok again ∧
      again.map Node.withoutSpans = program.map Node.withoutSpans := by
  refine readProgram_of_legible blank fun node member token occurs => ?_
  exact legible_of_readProgram read node member token occurs (isExact node member token occurs)

/-- Two expressions with a quotient that is not in lowest terms, a name with a slash and a letter
outside ASCII, and a string with a semicolon in it. -/
theorem readProgram_joinTexts_with_a_line_break :
    let program : List Node := [
      .list [.atom (.keyword (.special .definition)) ⟨2, 8⟩, .atom (.identifier "λ/x") ⟨9, 13⟩,
        .list [.atom (.number (.fraction ⟨-3, 2⟩)) ⟨15, 19⟩, .list [] ⟨19, 21⟩] ⟨14, 22⟩] ⟨0, 23⟩,
      .atom (.string "'it;s") ⟨23, 28⟩]
    readProgram "( define λ/x\t(-6/4()))'it;s ;end" = .ok program ∧
    (∀ node ∈ program, ∀ token ∈ node.leaves, token.IsExact) ∧
    joinTexts (fun _ => '\n') (program.map Node.text) = "(define λ/x (-3/2 ()))\n'it;s" ∧
    ∃ again, readProgram "(define λ/x (-3/2 ()))\n'it;s" = .ok again ∧
      again.map Node.withoutSpans = program.map Node.withoutSpans := by
  intro program
  have read : readProgram "( define λ/x\t(-6/4()))'it;s ;end" = .ok program :=
    readProgram_of_pieces rfl
  have isExact : ∀ node ∈ program, ∀ token ∈ node.leaves, token.IsExact := by
    simp [program, Node.leaves, Node.leavesAll, Token.IsExact, Number.IsExact]
  have written : joinTexts (fun _ => '\n') (program.map Node.text) =
      "(define λ/x (-3/2 ()))\n'it;s" := rfl
  refine ⟨read, isExact, written, ?_⟩
  rw [← written]
  exact readProgram_joinTexts read isExact fun _ => rfl

end SubstLisp
