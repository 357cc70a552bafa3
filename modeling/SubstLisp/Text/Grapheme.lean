import SubstLisp.Text.GraphemeClass

/-!
# Graphemes

The extended grapheme clusters of a text: its shortest pieces that a reader takes for characters.
Whether a grapheme ends between two characters depends on their classes, and on what comes before
them if the two are halves of a flag, pictographs, or consonants of a conjunct.  A fold over the
text keeps what matters of it.

The graphemes of a text, put together, are the text again.
-/

namespace SubstLisp

/-- What a place has right before it of a conjunct that may go on. -/
inductive ConjunctState where
  | none
  | consonant
  /-- A consonant and, behind it, a linker. -/
  | linked
deriving DecidableEq, Inhabited

/-- What a place has right before it of a sequence of pictographs that may go on. -/
inductive PictographState where
  | none
  /-- A pictograph and what extends it. -/
  | pictograph
  /-- The same with a joiner behind it. -/
  | joined
deriving DecidableEq, Inhabited

/-- What the text before a place says about whether a grapheme ends there. -/
structure GraphemeContext where
  last : GraphemeClass
  /-- Whether an odd number of halves of flags is right before the place. -/
  halfFlag : Bool
  pictographs : PictographState
  conjunct : ConjunctState
deriving DecidableEq, Inhabited

namespace GraphemeContext

def initial : GraphemeContext where
  last := .control
  halfFlag := false
  pictographs := .none
  conjunct := .none

/-- The sequence of pictographs before a place, one character of class `next` later. -/
def pictographsAfter (context : GraphemeContext) : GraphemeClass → PictographState
  | .pictograph => .pictograph
  | .extending => if context.pictographs = .pictograph then .pictograph else .none
  | .joiner => if context.pictographs = .pictograph then .joined else .none
  | _ => .none

/-- The conjunct before a place, one character `c` of class `next` later.  What extends a character
keeps its conjunct open, except for the mark that forbids to join. -/
def conjunctAfter (context : GraphemeContext) (c : Char) (next : GraphemeClass) : ConjunctState :=
  if isConjunctConsonant c then .consonant
  else if isConjunctLinker c then
    if context.conjunct = .none then .none else .linked
  else if (next = .extending || next = .joiner) && c ≠ '\u200c' then context.conjunct
  else .none

def after (context : GraphemeContext) (c : Char) : GraphemeContext where
  last := graphemeClass c
  halfFlag := graphemeClass c = .regionalIndicator && !context.halfFlag
  pictographs := context.pictographsAfter (graphemeClass c)
  conjunct := context.conjunctAfter c (graphemeClass c)

/-- Whether two classes of characters stand in one grapheme whenever they stand side by side. -/
def joins : GraphemeClass → GraphemeClass → Bool
  | .carriageReturn, next => next = .lineFeed
  | .lineFeed, _ | .control, _ => false
  | _, .carriageReturn | _, .lineFeed | _, .control => false
  | _, .extending | _, .joiner | _, .spacingMark => true
  | .prepended, _ => true
  | .leadingJamo, next =>
      next = .leadingJamo || next = .vowelJamo || next = .openSyllable || next = .closedSyllable
  | .openSyllable, next | .vowelJamo, next => next = .vowelJamo || next = .trailingJamo
  | .closedSyllable, next | .trailingJamo, next => next = .trailingJamo
  | _, _ => false

/-- Whether the character `c` goes on with the grapheme before it. -/
def continues (context : GraphemeContext) (c : Char) : Bool :=
  joins context.last (graphemeClass c) ||
    (context.halfFlag && graphemeClass c = .regionalIndicator) ||
    (context.pictographs = .joined && graphemeClass c = .pictograph) ||
    (context.conjunct = .linked && isConjunctConsonant c)

end GraphemeContext

/-- The graphemes of some characters, behind the characters of a grapheme begun before, whose latest
one comes first. -/
def graphemesBehind (context : GraphemeContext) (begun : List Char) : List Char → List (List Char)
  | [] => if begun.isEmpty then [] else [begun.reverse]
  | c :: rest =>
      if begun.isEmpty || context.continues c then
        graphemesBehind (context.after c) (c :: begun) rest
      else begun.reverse :: graphemesBehind (context.after c) [c] rest

def graphemes (cs : List Char) : List (List Char) :=
  graphemesBehind .initial [] cs

/-- No character is lost when a text is cut into graphemes. -/
theorem flatten_graphemesBehind (context : GraphemeContext) (begun cs : List Char) :
    (graphemesBehind context begun cs).flatten = begun.reverse ++ cs := by
  induction cs generalizing context begun with
  | nil => cases begun <;> simp [graphemesBehind]
  | cons c rest ih =>
    rw [graphemesBehind]
    split <;> simp [ih]

/-- The graphemes of a text, put together, are the text again. -/
theorem flatten_graphemes (cs : List Char) : (graphemes cs).flatten = cs :=
  flatten_graphemesBehind .initial [] cs

end SubstLisp
