import SubstLisp.Proofs.Reading.Legibility
import SubstLisp.Proofs.Report.Lines
import SubstLisp.Report.Basic

/-! # Where a report points

A report points at a character if it names the place of the character in its header, and shows the
line of this place below. Its text can be read in one way only. So it points at no character but the
first one of the marked part, and not even at this one if the part runs past the text
(`SubstLisp.Report.pointsAt_render_iff`).
-/

namespace SubstLisp

/-- The character `offset` of a text is in this line and this column, both counted from one. -/
def IsPlace (cs : List Char) (offset line column : Nat) : Prop :=
  ∃ here, IsLineAt cs offset here ∧ line = here.index + 1 ∧ column = offset - here.start + 1

/-- Behind its message, a report names a line and a column, both counted from one. What comes behind
the header is `below`. -/
def Locates (rendered message name : String) (line column : Nat) (below : String) : Prop :=
  ∃ indent, rendered = "Error: " ++ message ++ "\n" ++ repeated indent ' ' ++ "╭─[ " ++ name ++
    ":" ++ toString line ++ ":" ++ toString column ++ " ]" ++ "\n" ++ below

/-- Right below its header, a report shows a line with its number. A bend in front of the line leads
to a part that goes on in other lines. -/
def ShowsLine (below : String) (line : Line) : Prop :=
  ∃ indent margin bend rest, (bend = "" ∨ bend = "╭─▶ ") ∧
    below = repeated indent ' ' ++ "│" ++ "\n" ++ repeated margin ' ' ++
      toString (line.index + 1) ++ " │ " ++ bend ++ line.shown ++ "\n" ++ rest

/-- A report names the place of the character `offset` of a text, and shows its line. -/
def PointsAt (rendered message name : String) (cs : List Char) (offset : Nat) : Prop :=
  ∃ line below, IsLineAt cs offset line ∧
    Locates rendered message name (line.index + 1) (offset - line.start + 1) below ∧
    ShowsLine below line

/-! ### Reading a report -/

/-- A text is cut in one way at the first of its characters that equals `c`. -/
theorem append_cons_inj {c : Char} {left right before after : List Char}
    (first : ∀ d ∈ left, d ≠ c) (second : ∀ d ∈ right, d ≠ c)
    (same : left ++ c :: before = right ++ c :: after) : left = right ∧ before = after := by
  have cut := splitAtFirst?_append first before
  rw [same, splitAtFirst?_append second after, Option.some.injEq, Prod.mk.injEq] at cut
  exact ⟨cut.1.symm, cut.2.symm⟩

theorem toList_toString (n : Nat) : (toString n).toList = Nat.toDigits 10 n :=
  Nat.toList_repr

theorem toList_repeated (count : Nat) (c : Char) :
    (repeated count c).toList = List.replicate count c :=
  String.toList_ofList

theorem ne_of_mem_spaces {c : Char} (noSpace : ' ' ≠ c) (count : Nat) :
    ∀ d ∈ List.replicate count ' ', d ≠ c :=
  fun _ member => List.eq_of_mem_replicate member ▸ noSpace

/-- A character that is no digit is in no number. -/
theorem ne_of_mem_toDigits {c : Char} (noDigit : c.isDigit = false) (n : Nat) :
    ∀ d ∈ Nat.toDigits 10 n, d ≠ c := by
  rintro d member rfl
  have digit := isDigit_of_mem_toDigits d member
  rw [noDigit] at digit
  cases digit

/-- A number can be read up to a character that is no digit. -/
theorem toDigits_append_inj {c : Char} (noDigit : c.isDigit = false) {m n : Nat}
    {before after : List Char}
    (same : Nat.toDigits 10 m ++ c :: before = Nat.toDigits 10 n ++ c :: after) :
    m = n ∧ before = after := by
  obtain ⟨digits, rest⟩ :=
    append_cons_inj (ne_of_mem_toDigits noDigit m) (ne_of_mem_toDigits noDigit n) same
  have read := naturalLiteral?_toDigits m
  rw [digits, naturalLiteral?_toDigits] at read
  exact ⟨(Option.some.inj read).symm, rest⟩

/-- A report names at most one place. -/
theorem Locates.unique {rendered message name : String} {line column other place : Nat}
    {below rest : String} (first : Locates rendered message name line column below)
    (second : Locates rendered message name other place rest) :
    line = other ∧ column = place ∧ below = rest := by
  obtain ⟨indent, first⟩ := first
  obtain ⟨margin, second⟩ := second
  have same := congrArg String.toList (first.symm.trans second)
  -- Behind the message, the margin ends at the first corner, and each number at the first
  -- character that is no digit.
  simp only [String.toList_append, String.reduceToList, toList_toString, toList_repeated,
    List.append_assoc, List.cons_append, List.nil_append, List.cons.injEq,
    List.append_cancel_left_eq, true_and] at same
  have corner : ' ' ≠ '╭' := by decide
  have header := (append_cons_inj (ne_of_mem_spaces corner indent)
    (ne_of_mem_spaces corner margin) same).2
  simp only [List.cons.injEq, List.append_cancel_left_eq, true_and] at header
  obtain ⟨lines, behindLine⟩ := toDigits_append_inj rfl header
  obtain ⟨columns, behindColumn⟩ := toDigits_append_inj rfl behindLine
  simp only [List.cons.injEq, true_and] at behindColumn
  exact ⟨lines, columns, String.toList_injective behindColumn⟩

/-- A row that starts with the bar shows no line. -/
theorem not_showsLine_of_bar {below : String} (indent margin : Nat) (rest : String)
    (whole : below =
      repeated indent ' ' ++ "│" ++ "\n" ++ repeated margin ' ' ++ "│ " ++ "\n" ++ rest)
    (line : Line) : ¬ShowsLine below line := by
  rintro ⟨other, number, bend, later, -, shows⟩
  have same := congrArg String.toList (whole.symm.trans shows)
  simp only [String.toList_append, String.reduceToList, toList_toString, toList_repeated,
    List.append_assoc, List.cons_append, List.nil_append] at same
  have bar : ' ' ≠ '│' := by decide
  have behindBar := (append_cons_inj (ne_of_mem_spaces bar indent)
    (ne_of_mem_spaces bar other) same).2
  -- Before the next bar, the one row has only spaces and the other one the digits of a number.
  rw [List.cons.injEq, List.append_cons _ ' ', ← List.append_assoc] at behindBar
  have plain : ∀ d ∈ List.replicate number ' ' ++ (Nat.toDigits 10 (line.index + 1) ++ [' ']),
      d ≠ '│' := by
    simp only [List.forall_mem_append, List.forall_mem_singleton]
    exact ⟨ne_of_mem_spaces bar number, ne_of_mem_toDigits rfl _, bar⟩
  obtain ⟨spaces, -⟩ := append_cons_inj (ne_of_mem_spaces bar margin) plain behindBar.2
  obtain ⟨digit, inside⟩ := List.exists_mem_of_ne_nil _ (@Nat.toDigits_ne_nil (line.index + 1) 10)
  have space : digit ∈ List.replicate margin ' ' := by simp [spaces, inside]
  exact ne_of_mem_toDigits rfl _ digit inside (List.eq_of_mem_replicate space)

/-! ### Drawing a report -/

theorem join_rows_cons (row : String) (rows : List String) :
    String.join ((row :: rows).map (· ++ "\n")) =
      row ++ "\n" ++ String.join (rows.map (· ++ "\n")) := by
  rw [List.map_cons, String.join_cons]

/-- Nothing but a message names no place. -/
theorem not_locates_message {message name : String} {line column : Nat} {below : String} :
    ¬Locates ("Error: " ++ message ++ "\n") message name line column below := by
  rintro ⟨indent, same⟩
  have length := congrArg String.length same
  have corner : "╭─[ ".length = 4 := rfl
  simp only [String.length_append, corner] at length
  omega

namespace Report

variable (report : Report) (cs : List Char)

/-- The line in which the marked part starts. -/
def opening : Line :=
  lineAt cs report.span.start

/-- The line in which the marked part ends. -/
def closing : Line :=
  lineAt cs (report.span.stop - 1)

/-- How many digits the line numbers have. -/
def width : Nat :=
  (toString ((report.closing cs).index + 1)).length

/-- The rows below the header that show the marked part. -/
def markedRows : List String :=
  if (report.opening cs).index = (report.closing cs).index then
    report.singleLine (report.width cs) (report.opening cs)
  else report.severalLines (report.width cs) (report.opening cs) (report.closing cs)

/-- The marked part ends in the line in which it starts, and yet behind all of its characters. -/
def Overruns : Prop :=
  (report.opening cs).index = (report.closing cs).index ∧
    (report.opening cs).stop < report.span.stop

/-- The rows that show the marked part stand below the header and an empty row. -/
theorem exists_excerpt (name : String) :
    ∃ rest, report.excerpt name cs =
      (margin (report.width cs) ++ "╭─[ " ++ (name ++ ":" ++
        toString ((report.opening cs).index + 1) ++ ":" ++
        toString (report.span.start - (report.opening cs).start + 1)) ++ " ]") ::
      (margin (report.width cs) ++ "│") :: (report.markedRows cs ++ rest) :=
  ⟨_, rfl⟩

variable {report cs}

/-- Where the marked part overruns the text, a single empty row is shown. -/
theorem markedRows_of_overruns (overruns : report.Overruns cs) :
    report.markedRows cs = [margin (report.width cs) ++ "│ "] := by
  obtain ⟨oneLine, stop⟩ := overruns
  rw [Line.stop] at stop
  rw [markedRows, if_pos oneLine, singleLine, if_pos (by omega)]

/-- The first row shows the number and the text of the line where the marked part opens. -/
theorem exists_markedRows (fits : ¬report.Overruns cs) :
    ∃ bend rest, (bend = "" ∨ bend = "╭─▶ ") ∧ report.markedRows cs =
      (numberedMargin (report.width cs) (report.opening cs) ++ bend ++
        (report.opening cs).shown) :: rest := by
  rw [Overruns, not_and, Nat.not_lt, Line.stop] at fits
  rw [markedRows]
  split
  case isTrue oneLine =>
    have stop := fits oneLine
    rw [singleLine, if_neg (by omega)]
    exact ⟨"", _, .inl rfl, by rw [String.append_empty]⟩
  case isFalse apart =>
    exact ⟨"╭─▶ ", _, .inr rfl, rfl⟩

theorem exists_numberedMargin (width : Nat) (line : Line) :
    ∃ margin, numberedMargin width line =
      repeated margin ' ' ++ toString (line.index + 1) ++ " │ " := by
  refine ⟨width - (toString (line.index + 1)).length + 1, ?_⟩
  rw [← String.toList_inj]
  simp only [numberedMargin, String.toList_append, String.reduceToList, toList_repeated,
    List.replicate_succ, List.cons_append, List.nil_append]

/-- A report that is drawn names the place of its first character. It shows the line of this place
unless the marked part overruns it. -/
theorem exists_locates_render {name source : String}
    (within : report.isWithin source.toList.length) :
    ∃ below, Locates (report.render name source) report.message name
        ((report.opening source.toList).index + 1)
        (report.span.start - (report.opening source.toList).start + 1) below ∧
      ((∃ line, ShowsLine below line) → ¬report.Overruns source.toList) ∧
      (¬report.Overruns source.toList → ShowsLine below (report.opening source.toList)) := by
  obtain ⟨rest, excerpt⟩ := report.exists_excerpt source.toList name
  let width := report.width source.toList
  let rows := (margin width ++ "│") :: (report.markedRows source.toList ++ rest)
  refine ⟨String.join (rows.map (· ++ "\n")), ⟨width + 2, ?_⟩, ?_, ?_⟩
  · rw [render, if_pos within, excerpt, join_rows_cons, join_rows_cons _ rows]
    simp only [margin, String.append_assoc, width]
  · rintro ⟨line, shows⟩ overruns
    refine not_showsLine_of_bar (width + 2) (width + 2) (String.join (rest.map (· ++ "\n"))) ?_
      line shows
    simp only [rows, markedRows_of_overruns overruns, List.singleton_append, join_rows_cons, margin,
      String.append_assoc, width]
  · intro fits
    obtain ⟨bend, others, isBend, first⟩ := exists_markedRows fits
    obtain ⟨indent, numbered⟩ := exists_numberedMargin width (report.opening source.toList)
    refine ⟨width + 2, indent, bend, String.join ((others ++ rest).map (· ++ "\n")), isBend, ?_⟩
    simp only [rows, first, numbered, List.cons_append, join_rows_cons, margin, String.append_assoc,
      width]

/-- A report is within a text if its span starts there and stops at most one character behind it. -/
theorem isWithin_iff {count : Nat} :
    report.isWithin count ↔ report.span.start ≤ count ∧ report.span.stop ≤ count + 1 := by
  simp [isWithin]

theorem isLineAt_opening : IsLineAt cs report.span.start (report.opening cs) :=
  isLineAt_lineAt cs report.span.start

theorem isLineAt_closing : IsLineAt cs (report.span.stop - 1) (report.closing cs) :=
  isLineAt_lineAt cs (report.span.stop - 1)

/-- Only a part that starts in the last line and ends one place behind the text overruns it. -/
theorem overruns_iff (nonempty : report.span.start < report.span.stop)
    (within : report.span.stop ≤ cs.length + 1) :
    report.Overruns cs ↔ report.span.stop = cs.length + 1 ∧
      ∀ start, startsLine cs start → start ≤ report.span.start := by
  have opens : IsLineAt cs report.span.start (report.opening cs) := isLineAt_opening
  have closes : IsLineAt cs (report.span.stop - 1) (report.closing cs) := isLineAt_closing
  constructor
  · rintro ⟨oneLine, stop⟩
    obtain ends : (report.opening cs).stop = cs.length := by
      rw [opens.isIn.unique closes.isIn oneLine] at stop ⊢
      exact closes.stop.resolve_left (by omega)
    refine ⟨by omega, fun start starts => ?_⟩
    obtain early | late := opens.isIn.whole start starts
    · exact early.trans opens.start
    · have inside := lt_length_of_startsLine starts
      omega
  · rintro ⟨stop, last⟩
    have start : (report.opening cs).start = (report.closing cs).start :=
      Nat.le_antisymm (closes.le_start opens.isIn.starts (opens.start.trans (by omega)))
        (opens.le_start closes.isIn.starts (last _ closes.isIn.starts))
    refine ⟨?_, ?_⟩
    · rw [opens.isIn.index, closes.isIn.index, start]
    · rw [stop]
      exact Nat.lt_succ_of_le opens.isIn.stop_le

/-- A report that names a place is within its text. -/
theorem within_of_locates {name source below : String} {line column : Nat}
    (locates : Locates (report.render name source) report.message name line column below) :
    report.isWithin source.toList.length := by
  by_contra outside
  rw [render, if_neg outside, join_rows_cons, List.map_nil, String.join_nil, String.append_empty]
    at locates
  exact not_locates_message locates

/-- A report that is drawn names the place of its first character. -/
theorem locates_render_iff {name source : String} {line column : Nat} :
    (∃ below, Locates (report.render name source) report.message name line column below) ↔
      (report.span.start ≤ source.toList.length ∧
        report.span.stop ≤ source.toList.length + 1) ∧
      IsPlace source.toList report.span.start line column := by
  rw [← isWithin_iff]
  constructor
  · rintro ⟨below, locates⟩
    have within := within_of_locates locates
    obtain ⟨_, drawn, -⟩ := exists_locates_render within
    obtain ⟨lines, columns, -⟩ := locates.unique drawn
    exact ⟨within, report.opening source.toList, isLineAt_opening, lines, columns⟩
  · rintro ⟨within, opening, isLineAt, rfl, rfl⟩
    obtain ⟨below, drawn, -⟩ := exists_locates_render within
    obtain rfl := isLineAt.unique isLineAt_opening
    exact ⟨below, drawn⟩

/-- A report points at the first character of the marked part, unless the part runs past
the text. -/
theorem pointsAt_render_iff (nonempty : report.span.start < report.span.stop) {name source : String}
    {offset : Nat} :
    PointsAt (report.render name source) report.message name source.toList offset ↔
      report.span.start = offset ∧ report.span.stop ≤ source.toList.length + 1 ∧
        (report.span.stop = source.toList.length + 1 →
          ∃ start, offset < start ∧ startsLine source.toList start) := by
  constructor
  · rintro ⟨line, below, isLineAt, locates, shows⟩
    have within := within_of_locates locates
    obtain ⟨other, drawn, fits, -⟩ := exists_locates_render within
    obtain ⟨lines, columns, rfl⟩ := locates.unique drawn
    obtain rfl : report.span.start = offset :=
      isLineAt_opening.offset_unique isLineAt (by omega) (by omega)
    have stop := (isWithin_iff.mp within).2
    refine ⟨rfl, stop, fun ends => ?_⟩
    by_contra! last
    refine fits ⟨line, shows⟩ ((overruns_iff nonempty stop).mpr ⟨ends, fun start starts => ?_⟩)
    exact Nat.not_lt.mp fun later => last start later starts
  · rintro ⟨rfl, stop, later⟩
    have within : report.isWithin source.toList.length := isWithin_iff.mpr ⟨by omega, stop⟩
    obtain ⟨below, drawn, -, shows⟩ := exists_locates_render within
    refine ⟨_, below, isLineAt_opening, drawn, shows fun overruns => ?_⟩
    obtain ⟨ends, last⟩ := (overruns_iff nonempty stop).mp overruns
    obtain ⟨start, behind, starts⟩ := later ends
    exact absurd (last start starts) (Nat.not_le.mpr behind)

end Report

end SubstLisp
