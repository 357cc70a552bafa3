import SubstLisp.Source.Lexeme

/-!
# Balance of parentheses

Before a text is interpreted, the prompt looks whether its parentheses balance.  A text with open
parentheses is unfinished; one with a closer that closes nothing will never balance, whatever
follows.
-/

namespace SubstLisp

/-- How the parentheses of a text stand. -/
inductive Balance where
  | balanced
  | unfinished
  /-- The closer at byte `position` closes nothing. -/
  | stray (position : Nat)
deriving DecidableEq

/-- How parentheses stand behind `depth` open ones. -/
def balanceFrom (depth : Nat) : List Lexeme → Balance
  | [] => if depth = 0 then .balanced else .unfinished
  | ⟨.opener, _⟩ :: rest => balanceFrom (depth + 1) rest
  | ⟨.closer, span⟩ :: rest =>
    match depth with
    | 0 => .stray span.start
    | outer + 1 => balanceFrom outer rest
  | ⟨.atom _, _⟩ :: rest => balanceFrom depth rest

/-- How the parentheses of a text stand. -/
def balance (source : String) : Balance :=
  balanceFrom 0 (lexemes source)

def strayMessage (position : Nat) : String :=
  "  - Unmatched ')' at position " ++ toString position

end SubstLisp
