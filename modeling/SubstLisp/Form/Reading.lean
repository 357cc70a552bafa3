import SubstLisp.Form.Node
import SubstLisp.Source.Lexeme

/-!
# Reading expressions

Expressions are read from the lexemes of a text, one at a time.  While a list is open, the reader
keeps the span of its opener and the children read so far; lists inside lists form a stack.

A closer with nothing open is an error that costs this one lexeme, so that reading can go on behind
it.  An opener that is never closed uses up the text; the innermost one left open is reported.
-/

namespace SubstLisp

/-- Why no expression could be read. -/
inductive ReadError where
  /-- A closer closes nothing. -/
  | unexpectedCloser (span : Span)
  /-- An opener is never closed. -/
  | missingCloser (opener : Span)
  /-- The text is over. -/
  | endOfText (span : Span)
deriving DecidableEq

namespace ReadError

def message : ReadError → String
  | .unexpectedCloser _ => "unexpected closing parenthesis"
  | .missingCloser _ => "expected closing parenthesis"
  | .endOfText _ => "unexpected end of input"

def span : ReadError → Span
  | .unexpectedCloser span | .missingCloser span | .endOfText span => span

end ReadError

/-- A list that has been opened and not yet closed. -/
structure OpenList where
  opener : Span
  /-- The latest child comes first. -/
  children : List Node

/-- Where reading ended in the lexemes, and what it found. -/
structure Reading where
  result : Except ReadError Node
  rest : List Lexeme

/-- Read one expression.  The lists in `enclosing` are open around it, the innermost first; `stop`
is where the text is over. -/
def readInside (stop : Nat) (enclosing : List OpenList) : List Lexeme → Reading
  | [] =>
    match enclosing with
    | [] => ⟨.error (.endOfText ⟨stop, stop⟩), []⟩
    | innermost :: _ => ⟨.error (.missingCloser innermost.opener), []⟩
  | ⟨.opener, span⟩ :: rest => readInside stop (⟨span, []⟩ :: enclosing) rest
  | ⟨.closer, span⟩ :: rest =>
    match enclosing with
    | [] => ⟨.error (.unexpectedCloser span), rest⟩
    | [outermost] =>
      ⟨.ok (.list outermost.children.reverse (outermost.opener.merge span)), rest⟩
    | innermost :: next :: outer =>
      let node := .list innermost.children.reverse (innermost.opener.merge span)
      readInside stop ({ next with children := node :: next.children } :: outer) rest
  | ⟨.atom text, span⟩ :: rest =>
    let node := .atom (Token.classify text) span
    match enclosing with
    | [] => ⟨.ok node, rest⟩
    | innermost :: outer =>
      readInside stop ({ innermost with children := node :: innermost.children } :: outer) rest

/-- Reading uses up at least one lexeme, if there is one. -/
theorem length_rest_readInside (stop : Nat) (enclosing : List OpenList) (lexemes : List Lexeme) :
    (readInside stop enclosing lexemes).rest.length ≤ lexemes.length - 1 := by
  fun_induction readInside stop enclosing lexemes <;> simp_all <;> omega

/-- Read expressions until the lexemes are used up; the first error ends the reading. -/
def readAll (stop : Nat) : List Lexeme → Except ReadError (List Node)
  | [] => .ok []
  | lexeme :: rest =>
    let reading := readInside stop [] (lexeme :: rest)
    match reading.result with
    | .error e => .error e
    | .ok node =>
      match readAll stop reading.rest with
      | .error e => .error e
      | .ok nodes => .ok (node :: nodes)
termination_by lexemes => lexemes.length
decreasing_by
  have shorter := length_rest_readInside stop [] (lexeme :: rest)
  simp only [List.length_cons] at *
  omega

/-- A source of expressions: the lexemes not yet read, and where the text is over. -/
structure Reader where
  rest : List Lexeme
  stop : Nat

namespace Reader

/-- The reader of a list of lexemes.  The text is over where the last lexeme ends. -/
def ofLexemes (lexemes : List Lexeme) : Reader where
  rest := lexemes
  stop := (lexemes.getLast?.map (·.span.stop)).getD 0

/-- Read the next expression, and what is left after it. -/
def next (reader : Reader) : Except ReadError Node × Reader :=
  let reading := readInside reader.stop [] reader.rest
  (reading.result, { reader with rest := reading.rest })

/-- Read a given number of expressions, going on after errors. -/
def take (reader : Reader) : Nat → List (Except ReadError Node)
  | 0 => []
  | count + 1 => reader.next.1 :: reader.next.2.take count

/-- Read all expressions; the first error ends the reading. -/
def all (reader : Reader) : Except ReadError (List Node) :=
  readAll reader.stop reader.rest

end Reader

/-- The program that a source text holds: its expressions at the top level, in order. -/
def readProgram (source : String) : Except ReadError (List Node) :=
  (Reader.ofLexemes (lexemes source)).all

end SubstLisp
