/-!
# Lines of a text

A text is cut into lines behind each line terminator.  A line keeps its terminator, and a text that
ends with one has no further line.  A text without characters has one line without characters.
-/

namespace SubstLisp

/-- The characters that end a line by themselves. -/
def endsLine (c : Char) : Bool :=
  c = '\n' || c = '\r' || c = '\x0b' || c = '\x0c' || c = '\u0085' || c = '\u2028' || c = '\u2029'

/-- The lines of some characters, behind the characters of a line begun before, whose latest one
comes first. -/
def linesBehind (begun : List Char) : List Char → List (List Char)
  | [] => if begun.isEmpty then [] else [begun.reverse]
  | '\r' :: '\n' :: rest => (begun.reverse ++ ['\r', '\n']) :: linesBehind [] rest
  | c :: rest =>
      if endsLine c then (c :: begun).reverse :: linesBehind [] rest
      else linesBehind (c :: begun) rest

/-- The first line of a text and the others. -/
def splitLines (cs : List Char) : List Char × List (List Char) :=
  match linesBehind [] cs with
  | [] => ([], [])
  | first :: others => (first, others)

/-- A line, how many lines are before it, and how many characters. -/
structure Line where
  index : Nat
  start : Nat
  characters : List Char
deriving Inhabited

/-- The last line that starts at or before the character at `offset`, among one that does and
those after it. -/
def Line.seek (offset : Nat) (line : Line) : List (List Char) → Line
  | [] => line
  | next :: others =>
      let start := line.start + line.characters.length
      if start ≤ offset then Line.seek offset ⟨line.index + 1, start, next⟩ others else line

def lineAt (cs : List Char) (offset : Nat) : Line :=
  let (first, others) := splitLines cs
  Line.seek offset ⟨0, 0, first⟩ others

end SubstLisp
