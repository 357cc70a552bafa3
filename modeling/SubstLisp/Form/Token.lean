import SubstLisp.Decimal.Literal
import SubstLisp.Form.Keyword
import SubstLisp.Number.Arithmetic

/-!
# Tokens

The text of an atom decides what it denotes: a number if it is written like one, else a keyword, a
boolean, a string or, for everything left over, an identifier.  No text is refused.

A string keeps its opening quote and every other character as written.  A quotient that has no
exact value, such as one with denominator zero, is an identifier.
-/

namespace SubstLisp

/-- What an atom denotes. -/
inductive Token where
  | number (value : Number)
  | string (verbatim : String)
  | boolean (value : Bool)
  | identifier (name : String)
  | keyword (word : Keyword)
deriving DecidableEq, Inhabited

/-- The word that a signed integer denotes, if it fits one. -/
def wordLiteral? (cs : List Char) : Option Word :=
  (integerLiteral? cs).bind wordOf?

/-- The numerator and denominator of a literal with a slash, split at its first one. -/
def quotientLiteral? (cs : List Char) : Option (Word × Word) := do
  let (before, after) ← splitAtFirst? '/' cs
  let numerator ← wordLiteral? before
  let denominator ← wordLiteral? after
  return (numerator, denominator)

/-- The number that a text denotes: an integer, else a quotient, else a decimal. -/
def numberLiteral? (cs : List Char) : Option Number :=
  match wordLiteral? cs with
  | some n => some (.integer n)
  | none =>
    match quotientLiteral? cs with
    | some (numerator, denominator) =>
      (reduce numerator.toInt denominator.toInt).bind Except.toOption
    | none => (decimalLiteral? cs).map .float

namespace Token

/-- What a text denotes if it is neither a number nor a keyword. -/
def classifyWord (text : String) : Token :=
  if text = "#t" then .boolean true
  else if text = "#f" then .boolean false
  else match text.toList with
    | '\'' :: _ | '"' :: _ => .string text
    | _ => .identifier text

/-- What a text denotes. -/
def classify (text : String) : Token :=
  match numberLiteral? text.toList with
  | some value => .number value
  | none =>
    match Keyword.ofSpelling? text with
    | some word => .keyword word
    | none => classifyWord text

/-- Whether a token is no floating-point number. -/
def IsExact : Token → Prop
  | .number value => value.IsExact
  | .string _ | .boolean _ | .identifier _ | .keyword _ => True

instance : DecidablePred IsExact
  | .number value => inferInstanceAs (Decidable value.IsExact)
  | .string _ | .boolean _ | .identifier _ | .keyword _ => .isTrue trivial

def number? : Token → Option Number
  | .number value => some value
  | _ => none

def text : Token → String
  | .number value => value.text
  | .string verbatim => verbatim
  | .boolean true => "#t"
  | .boolean false => "#f"
  | .identifier name => name
  | .keyword word => word.spelling

def typeName : Token → String
  | .number value => value.typeName
  | .string _ => "string"
  | .boolean _ => "boolean"
  | .identifier _ => "identifier"
  | .keyword (.builtin _) => "builtin"
  | .keyword (.special _) => "special form"

/-- The same kind of token, and equal as such; numbers compare as in `Number.alike`. -/
def alike : Token → Token → Bool
  | .number a, .number b => a.alike b
  | .string a, .string b => a = b
  | .boolean a, .boolean b => a = b
  | .identifier a, .identifier b => a = b
  | .keyword a, .keyword b => a = b
  | _, _ => false

end Token

end SubstLisp
