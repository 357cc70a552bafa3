/-!
# Spans of source text

Every lexeme, expression and error remembers where it was written, as a range of bytes of the
UTF-8 text it came from.  Spans serve diagnostics only: evaluation never looks at them.
-/

namespace SubstLisp

/-- The bytes of a text from `start` up to, but not including, `stop`. -/
structure Span where
  start : Nat
  stop : Nat
deriving DecidableEq, Inhabited

namespace Span

/-- The least span that covers both. -/
def merge (left right : Span) : Span where
  start := min left.start right.start
  stop := max left.stop right.stop

/-- The written form of a span, both ends separated by two dots. -/
def text (span : Span) : String :=
  toString span.start ++ ".." ++ toString span.stop

/-- The span of the same bytes once `distance` bytes are put in front of the text. -/
def shift (distance : Nat) (span : Span) : Span where
  start := span.start + distance
  stop := span.stop + distance

end Span

end SubstLisp
