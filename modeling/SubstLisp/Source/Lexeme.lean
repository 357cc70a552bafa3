import SubstLisp.Source.Span

/-!
# Lexemes

A source text is a sequence of parentheses and atoms, separated by blanks and comments.  A comment
runs from a semicolon that does not continue an atom to the end of its line.  An atom is a longest
run of characters that are neither blanks nor parentheses; what it denotes is decided later, so
that every text has lexemes and none is an error.

The scanner reads one character at a time and keeps what the latest characters belong to.  Scanning
is therefore a fold over the characters, and the lexemes of a longer text continue those of a
shorter one.
-/

namespace SubstLisp

inductive LexemeKind where
  | opener
  | closer
  | atom (text : String)
deriving DecidableEq, Inhabited

/-- The characters of a lexeme, as they stand in the source text. -/
def LexemeKind.text : LexemeKind → String
  | .opener => "("
  | .closer => ")"
  | .atom text => text

/-- A lexeme and the bytes it occupies. -/
structure Lexeme where
  kind : LexemeKind
  span : Span
deriving DecidableEq, Inhabited

/-- Space, tab, line feed, carriage return and form feed separate lexemes. -/
def isBlank (c : Char) : Bool :=
  c = ' ' || c = '\t' || c = '\n' || c = '\r' || c = '\x0c'

/-- A parenthesis is a lexeme of its own, whatever stands beside it. -/
def isParenthesis (c : Char) : Bool :=
  c = '(' || c = ')'

/-- An atom runs up to the next blank or parenthesis. -/
def endsAtom (c : Char) : Bool :=
  isBlank c || isParenthesis c

/-- What the characters since the last finished lexeme belong to. -/
inductive Pending where
  | gap
  | comment
  /-- An atom that starts at byte `start`; its latest letter comes first. -/
  | atom (start : Nat) (letters : List Char)
deriving DecidableEq

/-- The state of a scan: the bytes read so far and the lexemes they hold. -/
structure Scanner where
  offset : Nat
  /-- The lexemes that later characters can no longer change, the latest one first. -/
  finished : List Lexeme
  pending : Pending
deriving DecidableEq

namespace Scanner

def initial : Scanner where
  offset := 0
  finished := []
  pending := .gap

/-- The lexemes read so far, the latest one first.  A pending atom ends here. -/
def latestFirst (scanner : Scanner) : List Lexeme :=
  match scanner.pending with
  | .gap | .comment => scanner.finished
  | .atom start letters =>
      ⟨.atom (String.ofList letters.reverse), ⟨start, scanner.offset⟩⟩ :: scanner.finished

/-- Read a character that continues neither an atom nor a comment, after the lexemes `finished`. -/
def start (offset : Nat) (finished : List Lexeme) (c : Char) : Scanner :=
  let next := offset + c.utf8Size
  if c = '(' then ⟨next, ⟨.opener, ⟨offset, next⟩⟩ :: finished, .gap⟩
  else if c = ')' then ⟨next, ⟨.closer, ⟨offset, next⟩⟩ :: finished, .gap⟩
  else if c = ';' then ⟨next, finished, .comment⟩
  else if isBlank c then ⟨next, finished, .gap⟩
  else ⟨next, finished, .atom offset [c]⟩

def step (scanner : Scanner) (c : Char) : Scanner :=
  let next := scanner.offset + c.utf8Size
  match scanner.pending with
  | .gap => start scanner.offset scanner.finished c
  | .comment => ⟨next, scanner.finished, if c = '\n' then .gap else .comment⟩
  | .atom first letters =>
      if endsAtom c then start scanner.offset scanner.latestFirst c
      else ⟨next, scanner.finished, .atom first (c :: letters)⟩

def run (scanner : Scanner) (cs : List Char) : Scanner :=
  cs.foldl step scanner

@[simp] theorem run_nil (scanner : Scanner) : scanner.run [] = scanner := rfl

@[simp] theorem run_cons (scanner : Scanner) (c : Char) (cs : List Char) :
    scanner.run (c :: cs) = (scanner.step c).run cs := rfl

/-- Reading two texts one after the other is reading their concatenation. -/
theorem run_append (scanner : Scanner) (left right : List Char) :
    scanner.run (left ++ right) = (scanner.run left).run right :=
  List.foldl_append

end Scanner

def lexemesOf (cs : List Char) : List Lexeme :=
  (Scanner.initial.run cs).latestFirst.reverse

def lexemes (source : String) : List Lexeme :=
  lexemesOf source.toList

end SubstLisp
