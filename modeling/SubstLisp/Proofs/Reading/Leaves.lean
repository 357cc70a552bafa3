import SubstLisp.Form.Reading

/-! # The atoms of what is read

Every atom in an expression that was read denotes the text of a lexeme
(`SubstLisp.leaves_readProgram`).
-/

namespace SubstLisp

/-- The lexemes that a reading leaves over are the last ones. -/
theorem rest_readInside_suffix (stop : Nat) (enclosing : List OpenList) (lexemes : List Lexeme) :
    (readInside stop enclosing lexemes).rest <:+ lexemes := by
  fun_induction readInside stop enclosing lexemes with
  | case1 => exact List.suffix_refl _
  | case2 => exact List.suffix_refl _
  | case3 enclosing span rest ih => exact ih.trans (List.suffix_cons _ _)
  | case4 span rest => exact List.suffix_cons _ _
  | case5 span rest outermost => exact List.suffix_cons _ _
  | case6 span rest innermost next outer node ih => exact ih.trans (List.suffix_cons _ _)
  | case7 text span rest node => exact List.suffix_cons _ _
  | case8 text span rest node innermost outer ih => exact ih.trans (List.suffix_cons _ _)

section Leaves

variable {P : Token → Prop}

/-- A property of the tokens that the lexemes denote, and of the atoms in the open lists, is one of
the atoms in what is read. -/
theorem leaves_readInside {stop : Nat} {enclosing : List OpenList} {lexemes : List Lexeme}
    (atoms : ∀ text span, ⟨.atom text, span⟩ ∈ lexemes → P (Token.classify text))
    (opened : ∀ list ∈ enclosing, ∀ child ∈ list.children, ∀ token ∈ child.leaves, P token)
    {node : Node} (read : (readInside stop enclosing lexemes).result = .ok node) :
    ∀ token ∈ node.leaves, P token := by
  have tail : ∀ {lexeme rest}, (∀ text span, (⟨.atom text, span⟩ : Lexeme) ∈ lexeme :: rest →
      P (Token.classify text)) →
      ∀ text span, (⟨.atom text, span⟩ : Lexeme) ∈ rest → P (Token.classify text) :=
    fun all text span member => all text span (List.mem_cons_of_mem _ member)
  have closed : ∀ {list : OpenList} {span : Span},
      (∀ child ∈ list.children, ∀ token ∈ child.leaves, P token) →
      ∀ token ∈ (Node.list list.children.reverse span).leaves, P token := by
    intro list span children token member
    simp only [Node.leaves, Node.leavesAll_eq_flatMap, List.mem_flatMap, List.mem_reverse] at member
    obtain ⟨child, inside, occurs⟩ := member
    exact children child inside token occurs
  fun_induction readInside stop enclosing lexemes with
  | case1 => cases read
  | case2 => cases read
  | case3 enclosing span rest ih =>
    refine ih (tail atoms) ?_ read
    rw [List.forall_mem_cons]
    exact ⟨by simp, opened⟩
  | case4 span rest => cases read
  | case5 span rest outermost =>
    cases read
    exact closed (opened outermost List.mem_cons_self)
  | case6 span rest innermost next outer node ih =>
    simp only [List.forall_mem_cons] at opened
    refine ih (tail atoms) ?_ read
    simp only [List.forall_mem_cons]
    exact ⟨⟨closed opened.1, opened.2.1⟩, opened.2.2⟩
  | case7 text span rest atom =>
    rw [← Except.ok.inj read]
    simpa only [atom, Node.leaves, List.mem_singleton, forall_eq] using
      atoms text span List.mem_cons_self
  | case8 text span rest node innermost outer ih =>
    simp only [List.forall_mem_cons] at opened
    refine ih (tail atoms) ?_ read
    simp only [List.forall_mem_cons]
    refine ⟨⟨?_, opened.1⟩, opened.2⟩
    simpa only [node, Node.leaves, List.mem_singleton, forall_eq] using
      atoms text span List.mem_cons_self

/-- The leaves of a program are what its atoms denote. -/
theorem leaves_readAll {stop : Nat} {lexemes : List Lexeme}
    (atoms : ∀ text span, ⟨.atom text, span⟩ ∈ lexemes → P (Token.classify text))
    {program : List Node} (read : readAll stop lexemes = .ok program) :
    ∀ node ∈ program, ∀ token ∈ node.leaves, P token := by
  fun_induction readAll stop lexemes generalizing program with
  | case1 =>
    cases read
    simp
  | case2 => cases read
  | case3 => cases read
  | case4 lexeme rest reading node found nodes others ih =>
    cases read
    rw [List.forall_mem_cons]
    refine ⟨leaves_readInside atoms (by simp) found, ih ?_ others⟩
    intro text span member
    exact atoms text span ((rest_readInside_suffix stop [] _).subset member)

/-- A property of the tokens that lexemes of a text denote is one of all atoms in its program. -/
theorem leaves_readProgram {source : String}
    (atoms : ∀ text span, ⟨.atom text, span⟩ ∈ lexemes source → P (Token.classify text))
    {program : List Node} (read : readProgram source = .ok program) :
    ∀ node ∈ program, ∀ token ∈ node.leaves, P token :=
  leaves_readAll atoms read

end Leaves

end SubstLisp
