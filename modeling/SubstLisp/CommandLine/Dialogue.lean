import SubstLisp.CommandLine.Output
import SubstLisp.Prompt.Balance
import SubstLisp.Text.Backspace

/-!
# Dialogues

A dialogue reads lines until their parentheses balance, interprets them, and goes on with the next
lines in the same environment.  Backspaces erase what was read before them, up to the start of the
read.  The prompt is written before each such read.  The word `exit` ends the dialogue, and so does
the end of the input, which drops a read that has begun.
-/

namespace SubstLisp

/-- A line of input and the characters that ended it, if it was ended. -/
structure InputLine where
  characters : List Char
  terminator : List Char
deriving DecidableEq

/-- The lines of some input, behind the characters of a line begun before, whose latest one comes
first. -/
def inputLinesBehind (begun : List Char) : List Char → List InputLine
  | [] => if begun.isEmpty then [] else [⟨begun.reverse, []⟩]
  | c :: rest =>
      if c = '\n' then
        (match begun with
          | '\r' :: others => ⟨others.reverse, ['\r', '\n']⟩
          | _ => ⟨begun.reverse, ['\n']⟩) :: inputLinesBehind [] rest
      else inputLinesBehind (c :: begun) rest

/-- The lines of some input.  A line feed ends a line, together with a carriage return before it. -/
def inputLines (input : String) : List InputLine :=
  inputLinesBehind [] input.toList

inductive Dialogue where
  /-- A read has begun with the characters `pending`. -/
  | reading (environment : Environment) (pending : List Char)
  | finished

def promptText : String :=
  "subscheme> "

def bannerText : String :=
  "subscheme REPL v0.1.0\nType 'exit' or press Ctrl-D to quit.\n"

def farewellText : String :=
  "\nExiting.\n"

/-- The name that reports give to what was typed. -/
def dialogueName : String :=
  "REPL"

/-- Whether a text is the word that ends a dialogue, in letters of either case. -/
def asksToExit (cs : List Char) : Bool :=
  cs.map Char.toLower = "exit".toList

namespace Dialogue

/-- A new dialogue, with its banner and first prompt. -/
def start : Dialogue × Output :=
  (.reading .standard [], .ofStandard (bannerText ++ promptText))

/-- Interpret what was read, without the whitespace around it, and prompt for more. -/
def submit (depth : Nat) (environment : Environment) (cs : List Char) :
    Option (Dialogue × Output) :=
  let trimmed := trim cs
  let source := String.ofList trimmed
  if trimmed.isEmpty then some (.reading environment [], .ofStandard promptText)
  else if asksToExit trimmed then some (.finished, .none)
  else do
    let (result, after) ← interpret depth source environment
    return (.reading after [],
      interpretationOutput dialogueName source result ++ .ofStandard promptText)

/-- Read one more line.  A stray closer is announced as an error, and the read goes on. -/
def feed (depth : Nat) (dialogue : Dialogue) (line : InputLine) : Option (Dialogue × Output) :=
  match dialogue with
  | .finished => some (.finished, .none)
  | .reading environment pending =>
    let cs := applyBackspaces (pending ++ line.characters)
    match balance (String.ofList cs) with
    | .balanced => submit depth environment cs
    | .unfinished => some (.reading environment (cs ++ line.terminator), .none)
    | .stray position => some (.reading environment cs, .ofError (strayMessage position))

def finish : Dialogue → Output
  | .finished => .none
  | .reading _ _ => .ofStandard farewellText

/-- Read lines to the end of the input, behind what has been written before. -/
def converse (depth : Nat) (dialogue : Dialogue) (written : Output) :
    List InputLine → Option Output
  | [] => some (written ++ dialogue.finish)
  | line :: rest => do
      let (next, output) ← dialogue.feed depth line
      converse depth next (written ++ output) rest

def transcript (depth : Nat) (input : String) : Option Output :=
  converse depth start.1 start.2 (inputLines input)

end Dialogue

end SubstLisp
