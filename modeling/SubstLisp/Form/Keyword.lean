/-!
# Keywords

The reserved words: the names of the builtin procedures, and the words that introduce special
forms.  A word means the same wherever it stands, since no program can bind a keyword.
-/

namespace SubstLisp

inductive Builtin where
  | add
  | subtract
  | multiply
  | divide
  | greater
  | less
  | greaterOrEqual
  | lessOrEqual
  | equal
  | sqrt
  | floor
  | ceiling
  | round
  | max
  | min
  | abs
deriving DecidableEq, Inhabited

/-- The forms whose operands are not all evaluated. -/
inductive SpecialForm where
  | conditional
  | definition
  | assignment
  | abstraction
  | sequence
deriving DecidableEq, Inhabited

inductive Keyword where
  | builtin (procedure : Builtin)
  | special (form : SpecialForm)
deriving DecidableEq, Inhabited

def Builtin.all : List Builtin :=
  [.add, .subtract, .multiply, .divide, .greater, .less, .greaterOrEqual, .lessOrEqual, .equal,
    .sqrt, .floor, .ceiling, .round, .max, .min, .abs]

def Builtin.spelling : Builtin → String
  | .add => "+"
  | .subtract => "-"
  | .multiply => "*"
  | .divide => "/"
  | .greater => ">"
  | .less => "<"
  | .greaterOrEqual => ">="
  | .lessOrEqual => "<="
  | .equal => "="
  | .sqrt => "sqrt"
  | .floor => "floor"
  | .ceiling => "ceiling"
  | .round => "round"
  | .max => "max"
  | .min => "min"
  | .abs => "abs"

def SpecialForm.all : List SpecialForm :=
  [.conditional, .definition, .assignment, .abstraction, .sequence]

def SpecialForm.spelling : SpecialForm → String
  | .conditional => "if"
  | .definition => "define"
  | .assignment => "set!"
  | .abstraction => "lambda"
  | .sequence => "begin"

namespace Keyword

/-- All keywords, the builtin procedures first. -/
def all : List Keyword :=
  Builtin.all.map .builtin ++ SpecialForm.all.map .special

def spelling : Keyword → String
  | .builtin procedure => procedure.spelling
  | .special form => form.spelling

def ofSpelling? (word : String) : Option Keyword :=
  all.find? (·.spelling = word)

def isSpecial : Keyword → Bool
  | .builtin _ => false
  | .special _ => true

/-- No keyword is missing from the list of all. -/
theorem mem_all (keyword : Keyword) : keyword ∈ all := by
  rcases keyword with procedure | form
  · cases procedure <;> decide
  · cases form <;> decide

/-- No two keywords share a spelling, so reading a keyword gives it back. -/
theorem ofSpelling?_spelling (keyword : Keyword) : ofSpelling? keyword.spelling = some keyword := by
  rcases keyword with procedure | form
  · cases procedure <;> rfl
  · cases form <;> rfl

/-- A keyword is found by its own spelling only. -/
theorem spelling_of_ofSpelling? {word : String} {keyword : Keyword}
    (found : ofSpelling? word = some keyword) : keyword.spelling = word := by
  simpa using List.find?_some found

end Keyword

end SubstLisp
