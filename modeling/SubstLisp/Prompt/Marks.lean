import SubstLisp.Source.Lexeme

/-!
# Marked parentheses

While a line is typed, the pair of parentheses at the cursor and every stray closer stand out.  The
cursor touches a parenthesis when it stands right before or right behind it; of several pairs that
it touches, the one that closes last is marked.
-/

namespace SubstLisp

/-- The marked parentheses of a line, by the bytes they stand at. -/
structure Marks where
  /-- An opener and its closer. -/
  pair : Option (Nat × Nat)
  /-- The closers that close nothing, in order. -/
  strays : List Nat
deriving DecidableEq

/-- Whether the cursor at byte `cursor` touches the parenthesis at byte `offset`. -/
def touches (cursor offset : Nat) : Bool :=
  offset = cursor || offset + 1 = cursor

/-- The marks of some lexemes.  Those before them have left the openers `opened`, the latest first,
and marked `pair`. -/
def marksFrom (cursor : Nat) (opened : List Nat) (pair : Option (Nat × Nat)) : List Lexeme → Marks
  | [] => ⟨pair, []⟩
  | ⟨.opener, span⟩ :: rest => marksFrom cursor (span.start :: opened) pair rest
  | ⟨.closer, span⟩ :: rest =>
    match opened with
    | [] =>
      let marks := marksFrom cursor [] pair rest
      { marks with strays := span.start :: marks.strays }
    | opener :: outer =>
      let touched := touches cursor opener || touches cursor span.start
      marksFrom cursor outer (if touched then some (opener, span.start) else pair) rest
  | ⟨.atom _, _⟩ :: rest => marksFrom cursor opened pair rest

/-- The marks of a line with the cursor at byte `cursor`. -/
def marks (line : String) (cursor : Nat) : Marks :=
  marksFrom cursor [] none (lexemes line)

/-- What the terminal is told before and after a character, to give it a colour. -/
inductive Colour where
  | blue
  | red
deriving DecidableEq

def Colour.paint (c : Char) : Colour → List Char
  | .blue => "\x1b[1;34m".toList ++ c :: "\x1b[0m".toList
  | .red => "\x1b[1;31m".toList ++ c :: "\x1b[0m".toList

/-- The colour of the character at byte `offset`: blue for a pair, red for a stray closer. -/
def Marks.colour? (marks : Marks) (offset : Nat) : Option Colour :=
  if marks.pair.any fun (opener, closer) => offset = opener || offset = closer then some .blue
  else if marks.strays.contains offset then some .red
  else none

/-- The characters from byte `offset` on, with the marked ones in their colours. -/
def Marks.paintFrom (marks : Marks) (offset : Nat) : List Char → List Char
  | [] => []
  | c :: rest =>
      (match marks.colour? offset with
        | some colour => colour.paint c
        | none => [c]) ++ marks.paintFrom (offset + c.utf8Size) rest

def highlight (line : String) (cursor : Nat) : String :=
  String.ofList ((marks line cursor).paintFrom 0 line.toList)

end SubstLisp
