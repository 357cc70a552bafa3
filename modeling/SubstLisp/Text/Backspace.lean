import SubstLisp.Text.Grapheme

/-!
# Backspaces

A backspace in a text erases the grapheme before it, and itself.  At the start of the text it erases
only itself.
-/

namespace SubstLisp

/-- The character that erases the grapheme before it. -/
def backspace : Char :=
  '\x08'

/-- What is left of some graphemes, the latest first, when one more follows them. -/
def eraseOrKeep (kept : List (List Char)) (grapheme : List Char) : List (List Char) :=
  if grapheme = [backspace] then kept.tail else grapheme :: kept

/-- A text with what its backspaces erase left out. -/
def applyBackspaces (cs : List Char) : List Char :=
  ((graphemes cs).foldl eraseOrKeep []).reverse.flatten

/-- Without a backspace among the pieces, all of them are kept. -/
theorem foldl_eraseOrKeep {pieces : List (List Char)} (absent : [backspace] ∉ pieces)
    (kept : List (List Char)) : pieces.foldl eraseOrKeep kept = pieces.reverse ++ kept := by
  induction pieces generalizing kept with
  | nil => rfl
  | cons piece rest ih =>
    simp only [List.mem_cons, not_or] at absent
    rw [List.foldl_cons, ih absent.2, eraseOrKeep, if_neg (Ne.symm absent.1)]
    simp

/-- Without a backspace nothing is erased. -/
theorem applyBackspaces_eq_self {cs : List Char} (absent : backspace ∉ cs) :
    applyBackspaces cs = cs := by
  have kept : [backspace] ∉ graphemes cs := fun present =>
    absent (flatten_graphemes cs ▸ List.mem_flatten.mpr ⟨_, present, List.mem_singleton_self _⟩)
  rw [applyBackspaces, foldl_eraseOrKeep kept, List.append_nil, List.reverse_reverse,
    flatten_graphemes]

end SubstLisp
