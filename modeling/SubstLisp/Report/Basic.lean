import SubstLisp.Evaluation.Failure
import SubstLisp.Report.Lines
import SubstLisp.Text.Whitespace

/-!
# Reports

A report shows a failure to the user: what went wrong, the lines of the source text it concerns with
the offending part marked, and what kind of failure it is.

The span of a failure counts bytes, and a report takes it as if it counted characters.  So marks
shift behind characters of more than one byte, and a span may end behind the text, in which case
nothing but the message is shown.
-/

namespace SubstLisp

/-- What a report shows beside the source text. -/
structure Report where
  message : String
  label : String
  note : String
  span : Span

/-- What is wrong with the marked part. -/
def Failure.label : Failure → String
  | .reading (.missingCloser _) => "This parenthesis is never closed"
  | .reading (.unexpectedCloser _) => "This parenthesis closes nothing"
  | .reading (.endOfText _) => "Input ends here"
  | .evaluation cause =>
    match cause with
    | .unbound _ _ => "This name is not defined"
    | .malformedDefinition _ _ => "This definition is malformed"
    | .malformedConditional _ => "This special form is malformed or incomplete"
    | .argumentCount _ _ _ => "Called with the wrong number of arguments"
    | .notCallable _ _ => "This expression cannot be called as a procedure"
    | .builtin _ _ _ => "Raised by this call"

def Failure.report (failure : Failure) : Report where
  message := failure.message
  label := failure.label
  note := "error kind: " ++ failure.kind.text
  span := failure.span

def repeated (count : Nat) (c : Char) : String :=
  String.ofList (List.replicate count c)

/-- How many columns the character at position `column` of a line takes.  A tab reaches up to the
next multiple of four. -/
def cellWidth (column : Nat) (c : Char) : Nat :=
  if c = '\t' then 4 * (column / 4 + 1) - column else 1

/-- The characters of a line, from position `column` on, as they are shown: all whitespace becomes
spaces. -/
def showFrom (column : Nat) : List Char → List Char
  | [] => []
  | c :: rest =>
      (if isWhitespace c then List.replicate (cellWidth column c) ' ' else [c]) ++
        showFrom (column + 1) rest

/-- The characters of a line that are shown: not the whitespace at its end. -/
def Line.visible (line : Line) : List Char :=
  trimEnd line.characters

def Line.shown (line : Line) : String :=
  String.ofList (showFrom 0 line.visible)

/-- A row below a line: `cell` gives the mark at each position, and the mark that fills up the
columns that a shown tab takes beyond the first.  Positions behind the shown characters take one
column each. -/
def Line.row (line : Line) (count : Nat) (cell : Nat → Char × Char) : String :=
  let visible := line.visible
  String.ofList <| (List.range count).flatMap fun column =>
    let width := (visible[column]?.map (cellWidth column)).getD 1
    let (mark, fill) := cell column
    mark :: List.replicate (width - 1) fill

namespace Report

/-- The row that underlines a part of a line and branches off at `middle`. -/
def underline (line : Line) (count first last middle : Nat) : String :=
  line.row count fun column =>
    if column = middle then ('┬', '─')
    else if first ≤ column && column < last then ('─', '─')
    else (' ', ' ')

/-- The row that leads from `middle` to the label. -/
def pointer (line : Line) (count middle : Nat) : String :=
  line.row count fun column =>
    if column < middle then (' ', ' ')
    else if column = middle then ('╰', '─')
    else ('─', '─')

/-- The margin beside rows without a line number, for line numbers of `width` digits. -/
def margin (width : Nat) : String :=
  repeated (width + 2) ' '

/-- The margin beside a line, with its number. -/
def numberedMargin (width : Nat) (line : Line) : String :=
  let digits := toString (line.index + 1)
  " " ++ repeated (width - digits.length) ' ' ++ digits ++ " │ "

/-- The lines that show a marked part of a single line. -/
def singleLine (report : Report) (width : Nat) (line : Line) : List String :=
  let first := report.span.start - line.start
  let last := report.span.stop - line.start
  if line.characters.length < last then [margin width ++ "│ "]
  else
    let middle := (report.span.start + report.span.stop) / 2 - line.start
    let count := last + 2
    [numberedMargin width line ++ line.shown,
      margin width ++ "│ " ++ underline line count first last middle,
      margin width ++ "│ " ++ pointer line count middle ++ " " ++ report.label]

/-- The lines that show the end of a marked part, with the label.  There are none if that end lies
behind the text. -/
def closingLines (report : Report) (width : Nat) (closing : Line) : List String :=
  if closing.start + closing.characters.length < report.span.stop then []
  else
    let count := closing.characters.length + 2
    [numberedMargin width closing ++ "├─▶ " ++ closing.shown,
      margin width ++ "│ │   " ++ closing.row count fun _ => (' ', ' '),
      margin width ++ "│ ╰───" ++ (closing.row count fun _ => ('─', '─')) ++ " " ++ report.label]

/-- The lines that show a marked part that runs over several lines.  All lines between the first
and the one with the end are left out, and one row stands for them. -/
def severalLines (report : Report) (width : Nat) (opening closing : Line) : List String :=
  let shown := report.closingLines width closing
  let leftOut := shown.isEmpty || opening.index + 1 < closing.index
  [numberedMargin width opening ++ "╭─▶ " ++ opening.shown] ++
    (if leftOut then [margin width ++ "┆ ┆   "] else []) ++ shown

/-- What stands between the margin and the note.  A part that runs over several lines keeps its own
column there, and the bar in it goes on if the part starts right where the first line ends. -/
def noteIndent (report : Report) (opening closing first : Line) : String :=
  if opening.index = closing.index then ""
  else if report.span.start = first.characters.length then "│   "
  else "    "

/-- The lines that show where in a text the marked part is. -/
def excerpt (report : Report) (name : String) (cs : List Char) : List String :=
  let opening := lineAt cs report.span.start
  let closing := lineAt cs (report.span.stop - 1)
  let width := (toString (closing.index + 1)).length
  let column := report.span.start - opening.start + 1
  let place := name ++ ":" ++ toString (opening.index + 1) ++ ":" ++ toString column
  let marked :=
    if opening.index = closing.index then report.singleLine width opening
    else report.severalLines width opening closing
  let indent := report.noteIndent opening closing (lineAt cs 0)
  [margin width ++ "╭─[ " ++ place ++ " ]", margin width ++ "│"] ++ marked ++
    [margin width ++ "│ " ++ indent,
      margin width ++ "│ " ++ indent ++ "Note: " ++ report.note,
      repeated (width + 2) '─' ++ "╯"]

/-- Whether the marked part starts and ends inside a text of `count` characters. -/
def isWithin (report : Report) (count : Nat) : Bool :=
  report.span.start ≤ count && report.span.stop - 1 ≤ count

/-- A report about a source text, which has a name for the user. -/
def render (report : Report) (name : String) (source : String) : String :=
  let cs := source.toList
  let lines := if report.isWithin cs.length then report.excerpt name cs else []
  String.join ((("Error: " ++ report.message) :: lines).map (· ++ "\n"))

end Report

end SubstLisp
