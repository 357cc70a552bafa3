import SubstLisp.CommandLine.Dialogue
import SubstLisp.Proofs.Reading.Trimming
import SubstLisp.Proofs.Reading.Unbalanced

/-! # The reads of a dialogue

A read is a shortest run of lines, with line breaks between them, that leaves no parenthesis open.
The reads of a text whose parentheses balance are balanced themselves, and with a line break behind
each they are the whole text again (`SubstLisp.reads_of_balanced`).
-/

namespace SubstLisp

/-- Lines with a line break behind each. -/
def endLines (lines : List (List Char)) : List Char :=
  lines.flatMap (· ++ ['\n'])

/-- The reads of some lines, behind the characters of a read that has begun. The end of the lines
drops a read that is still unfinished. -/
def readsBehind (pending : List Char) : List (List Char) → List (List Char)
  | [] => []
  | line :: rest =>
    let cs := pending ++ line
    if balance (String.ofList cs) = .unfinished then readsBehind (cs ++ ['\n']) rest
    else cs :: readsBehind [] rest

/-- The reads of a text. -/
def reads (source : String) : List (List Char) :=
  readsBehind [] ((inputLines source).map InputLine.characters)

/-- The first line is ended before the others follow. -/
theorem endLines_cons (line : List Char) (rest : List (List Char)) :
    endLines (line :: rest) = line ++ '\n' :: endLines rest := by
  rw [endLines, List.flatMap_cons, List.append_assoc]
  rfl

/-! ### Lines -/

/-- A line with a line feed behind it. -/
def InputLine.ended (line : List Char) : InputLine where
  characters := line
  terminator := ['\n']

/-- A text without carriage returns that ends in a line feed is made of its lines. -/
theorem inputLinesBehind_of_ended {begun cs : List Char} (noReturnBegun : '\r' ∉ begun)
    (noReturn : '\r' ∉ cs) (ended : ∀ last ∈ cs.getLast?, last = '\n')
    (complete : cs = [] → begun = []) :
    ∃ lines, inputLinesBehind begun cs = lines.map InputLine.ended ∧
      endLines lines = begun.reverse ++ cs := by
  induction cs generalizing begun with
  | nil =>
    obtain rfl := complete rfl
    exact ⟨[], rfl, rfl⟩
  | cons c rest ih =>
    rw [List.mem_cons, not_or] at noReturn
    have endedRest : ∀ last ∈ rest.getLast?, last = '\n' := by
      intro last member
      refine ended last ?_
      rw [List.getLast?_cons, Option.mem_def.mp member]
      rfl
    have alone : ∀ others, begun ≠ '\r' :: others := by
      rintro others rfl
      exact noReturnBegun List.mem_cons_self
    by_cases lineBreak : c = '\n'
    · subst lineBreak
      obtain ⟨lines, split, whole⟩ := ih List.not_mem_nil noReturn.2 endedRest fun _ => rfl
      refine ⟨begun.reverse :: lines, ?_, ?_⟩
      · rw [inputLinesBehind, if_pos rfl, split, List.map_cons]
        · rfl
        · exact alone
      · rw [endLines_cons, whole]
        rfl
    · have noReturnNext : '\r' ∉ c :: begun := by
        rw [List.mem_cons, not_or]
        exact ⟨noReturn.1, noReturnBegun⟩
      -- The line goes on, since a text that ends here would not end in a line feed.
      have unfinished : rest = [] → c :: begun = [] := by
        rintro rfl
        exact absurd (ended c rfl) lineBreak
      obtain ⟨lines, split, whole⟩ := ih noReturnNext noReturn.2 endedRest unfinished
      refine ⟨lines, ?_, ?_⟩
      · rw [inputLinesBehind, if_neg lineBreak, split]
        exact alone
      · rw [whole, List.reverse_cons, List.append_assoc, List.singleton_append]

/-! ### Balanced parts -/

section Balance

variable {left right : List Char}

theorem ofList_lineBreak (left right : List Char) :
    String.ofList left ++ "\n" ++ String.ofList right = String.ofList (left ++ '\n' :: right) := by
  rw [String.ofList_append, String.ofList_cons, String.append_assoc]
  rfl

/-- A line break ends the lexemes on its left, and those on its right only move. -/
theorem lexemes_lineBreak (left right : List Char) :
    lexemes (String.ofList (left ++ '\n' :: right)) =
      lexemes (String.ofList left) ++ (lexemes (String.ofList right)).map
        (Lexeme.mapSpan (Span.shift ((String.ofList left).utf8ByteSize + 1))) := by
  rw [← lexemes_join, ofList_lineBreak]

/-- What follows a balanced part and a line break stands as it does alone. -/
theorem balance_lineBreak_iff (balanced : balance (String.ofList left) = .balanced) :
    balance (String.ofList (left ++ '\n' :: right)) = .balanced ↔
      balance (String.ofList right) = .balanced := by
  rw [balance, lexemes_lineBreak, balanceFrom_append balanced,
    balanceFrom_mapSpan_eq_balanced_iff, balance]

/-- A line break at the end does not change the balance. -/
theorem balance_lineBreak_nil (cs : List Char) :
    balance (String.ofList (cs ++ ['\n'])) = balance (String.ofList cs) := by
  rw [balance, lexemes_lineBreak]
  exact congrArg (balanceFrom 0) (List.append_nil _)

/-- No initial part of a balanced text closes what is not open. -/
theorem balance_ne_stray (balanced : balance (String.ofList (left ++ '\n' :: right)) = .balanced)
    (position : Nat) : balance (String.ofList left) ≠ .stray position := by
  intro stray
  rw [balance, lexemes_lineBreak, balanceFrom_append_of_stray stray] at balanced
  cases balanced

end Balance

/-- What is pending is nothing or the start of an unfinished read. So if all of it balances, the
lines end where a read does. -/
theorem readsBehind_of_balanced {pending : List Char} {lines : List (List Char)}
    (begun : pending = [] ∨ balance (String.ofList pending) = .unfinished)
    (balanced : balance (String.ofList (pending ++ endLines lines)) = .balanced) :
    endLines (readsBehind pending lines) = pending ++ endLines lines ∧
      ∀ read ∈ readsBehind pending lines, balance (String.ofList read) = .balanced := by
  fun_induction readsBehind pending lines with
  | case1 pending =>
    obtain rfl | unfinished := begun
    · exact ⟨rfl, fun _ member => nomatch member⟩
    · rw [endLines, List.flatMap_nil, List.append_nil, unfinished] at balanced
      cases balanced
  | case2 pending line rest cs unfinished ih =>
    have same : cs ++ ['\n'] ++ endLines rest = pending ++ endLines (line :: rest) := by
      simp [cs, endLines_cons]
    rw [← same] at balanced ⊢
    exact ih (.inr ((balance_lineBreak_nil cs).trans unfinished)) balanced
  | case3 pending line rest cs finished ih =>
    have same : cs ++ '\n' :: endLines rest = pending ++ endLines (line :: rest) := by
      simp [cs, endLines_cons]
    rw [← same] at balanced ⊢
    have first : balance (String.ofList cs) = .balanced := by
      cases stands : balance (String.ofList cs) with
      | balanced => rfl
      | unfinished => exact absurd stands finished
      | stray position => exact absurd stands (balance_ne_stray balanced position)
    obtain ⟨whole, others⟩ := ih (.inl rfl) ((balance_lineBreak_iff first).mp balanced)
    rw [endLines_cons, whole, List.forall_mem_cons]
    exact ⟨rfl, first, others⟩

section Ended

variable {source : String} (noReturn : '\r' ∉ source.toList)
  (ended : ∀ last ∈ source.toList.getLast?, last = '\n')
include noReturn ended

/-- An input whose last line is ended is a list of lines, and its reads are those of these lines. -/
theorem exists_lines : ∃ lines, inputLines source = lines.map InputLine.ended ∧
    endLines lines = source.toList ∧ reads source = readsBehind [] lines := by
  obtain ⟨lines, split, whole⟩ :=
    inputLinesBehind_of_ended List.not_mem_nil noReturn ended fun _ => rfl
  have lineByLine : inputLines source = lines.map InputLine.ended := split
  refine ⟨lines, lineByLine, whole, ?_⟩
  rw [reads, lineByLine, List.map_map]
  exact congrArg (readsBehind []) (List.map_id _)

/-- The reads of a balanced text are balanced, and they are all of it. -/
theorem reads_of_balanced (balanced : balance source = .balanced) :
    endLines (reads source) = source.toList ∧
      ∀ read ∈ reads source, balance (String.ofList read) = .balanced := by
  obtain ⟨lines, -, whole, same⟩ := exists_lines noReturn ended
  have linesBalanced : balance (String.ofList ([] ++ endLines lines)) = .balanced := by
    rwa [List.nil_append, whole, String.ofList_toList]
  rw [same, ← whole]
  exact readsBehind_of_balanced (.inl rfl) linesBalanced

end Ended

end SubstLisp
