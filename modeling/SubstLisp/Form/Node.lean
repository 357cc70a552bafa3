import SubstLisp.Form.Token
import SubstLisp.Source.Span

/-!
# Expressions

An expression is an atom or a list of expressions, and remembers where it was written.  Two
expressions are alike when they differ in nothing but where they were written.
-/

namespace SubstLisp

/-- An expression and the part of a source text it was read from. -/
inductive Node where
  | atom (token : Token) (span : Span)
  | list (children : List Node) (span : Span)
deriving Inhabited

namespace Node

def span : Node → Span
  | .atom _ span | .list _ span => span

/-- A property of all expressions follows if atoms have it and lists inherit it. -/
@[elab_as_elim]
theorem induction {motive : Node → Prop} (atom : ∀ token span, motive (.atom token span))
    (list : ∀ children span, (∀ child ∈ children, motive child) → motive (.list children span)) :
    ∀ node, motive node
  | .atom token span => atom token span
  | .list children span => list children span fun child _ => induction atom list child

mutual
/-- How deeply lists are nested: an atom is at depth zero. -/
def depth : Node → Nat
  | .atom _ _ => 0
  | .list children _ => 1 + depthAll children
def depthAll : List Node → Nat
  | [] => 0
  | node :: rest => max node.depth (depthAll rest)
end

mutual
def text : Node → String
  | .atom token _ => token.text
  | .list children _ => "(" ++ textAll children ++ ")"
/-- The written forms of several expressions, separated by single spaces. -/
def textAll : List Node → String
  | [] => ""
  | [node] => node.text
  | node :: rest => node.text ++ " " ++ textAll rest
end

mutual
/-- Whether two expressions differ in nothing but where they were written. -/
def alike : Node → Node → Bool
  | .atom s _, .atom t _ => s.alike t
  | .list left _, .list right _ => alikeAll left right
  | _, _ => false
def alikeAll : List Node → List Node → Bool
  | [], [] => true
  | m :: left, n :: right => m.alike n && alikeAll left right
  | _, _ => false
end

mutual
/-- Put an expression in the place of every atom. -/
def mapLeaves (f : Token → Span → Node) : Node → Node
  | .atom token span => f token span
  | .list children span => .list (mapLeavesAll f children) span
def mapLeavesAll (f : Token → Span → Node) : List Node → List Node
  | [] => []
  | node :: rest => node.mapLeaves f :: mapLeavesAll f rest
end

mutual
/-- The tokens of an expression in the order they are written. -/
def leaves : Node → List Token
  | .atom token _ => [token]
  | .list children _ => leavesAll children
def leavesAll : List Node → List Token
  | [] => []
  | node :: rest => node.leaves ++ leavesAll rest
end

/-- The leaves of several expressions are mapped one expression after the other. -/
theorem mapLeavesAll_eq_map (f : Token → Span → Node) (nodes : List Node) :
    mapLeavesAll f nodes = nodes.map (mapLeaves f) := by
  induction nodes with
  | nil => rfl
  | cons node rest ih => simp [mapLeavesAll, ih]

/-- The leaves of several expressions are those of each, one expression after the other. -/
theorem leavesAll_eq_flatMap (nodes : List Node) : leavesAll nodes = nodes.flatMap leaves := by
  induction nodes with
  | nil => rfl
  | cons node rest ih => simp [leavesAll, ih]

/-- Replacing atoms twice is replacing each by its twice replaced expression. -/
theorem mapLeaves_mapLeaves (f g : Token → Span → Node) (node : Node) :
    (node.mapLeaves f).mapLeaves g =
      node.mapLeaves fun token span => (f token span).mapLeaves g := by
  induction node using Node.induction with
  | atom token span => rfl
  | list children span ih =>
    simp only [mapLeaves, mapLeavesAll_eq_map, List.map_map]
    congr 1
    exact List.map_congr_left fun child member => ih child member

end Node

end SubstLisp
