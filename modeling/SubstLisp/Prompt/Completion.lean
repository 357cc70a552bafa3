import SubstLisp.Evaluation.Environment
import SubstLisp.Source.Lexeme

/-!
# Completion

An atom that the cursor stands right behind can be completed to any name that is bound and to any
keyword.  A completion is what is missing from the atom.
-/

namespace SubstLisp

/-- The characters in the first `count` bytes of a text. -/
def takeBytes (count : Nat) : List Char → List Char
  | [] => []
  | c :: rest => if c.utf8Size ≤ count then c :: takeBytes (count - c.utf8Size) rest else []

/-- The atom that ends where the text does. -/
def trailingAtom? (cs : List Char) : Option String :=
  match (Scanner.initial.run cs).latestFirst with
  | ⟨.atom text, span⟩ :: _ =>
      if span.stop = (Scanner.initial.run cs).offset then some text else none
  | _ => none

/-- Every name that an atom can be completed to. -/
def Environment.completionNames (environment : Environment) : List String :=
  sortNames (environment.names ++ Keyword.all.map Keyword.spelling)

/-- What a name has beyond the characters typed so far, if it continues them. -/
def continuation? (typed : List Char) (name : String) : Option String :=
  let characters := name.toList
  if typed.isPrefixOf characters && typed.length < characters.length then
    some (String.ofList (characters.drop typed.length))
  else none

/-- The ways to complete the atom that ends at byte `cursor` of a line, in order. -/
def completions (environment : Environment) (line : String) (cursor : Nat) : List String :=
  match trailingAtom? (takeBytes cursor line.toList) with
  | none => []
  | some typed => environment.completionNames.filterMap (continuation? typed.toList)

end SubstLisp
