import SubstLisp.Source.Lexeme

/-! # Scanning past a line break

A line break ends whatever is pending, be it an atom or a comment. What follows it is scanned as if
it were a text of its own, only further on: the lexemes of two texts with a line break between them
are those of the first and those of the second, moved (`SubstLisp.lexemes_join`).
-/

namespace SubstLisp

theorem utf8ByteSize_ofList_append (left right : List Char) :
    (String.ofList (left ++ right)).utf8ByteSize =
      (String.ofList left).utf8ByteSize + (String.ofList right).utf8ByteSize := by
  rw [String.ofList_append, String.utf8ByteSize_append]

theorem utf8ByteSize_ofList_cons (c : Char) (cs : List Char) :
    (String.ofList (c :: cs)).utf8ByteSize = c.utf8Size + (String.ofList cs).utf8ByteSize := by
  rw [String.ofList_cons, String.utf8ByteSize_append, String.utf8ByteSize_singleton]

/-- The same lexeme at another place. -/
def Lexeme.mapSpan (f : Span → Span) (lexeme : Lexeme) : Lexeme where
  kind := lexeme.kind
  span := f lexeme.span

def Pending.shift (distance : Nat) : Pending → Pending
  | .gap => .gap
  | .comment => .comment
  | .atom start letters => .atom (start + distance) letters

namespace Scanner

/-- The scan of the same characters behind `distance` bytes that hold the lexemes `earlier`. -/
def behind (distance : Nat) (earlier : List Lexeme) (scanner : Scanner) : Scanner where
  offset := scanner.offset + distance
  finished := scanner.finished.map (Lexeme.mapSpan (Span.shift distance)) ++ earlier
  pending := scanner.pending.shift distance

variable (distance : Nat) (earlier : List Lexeme)

/-- Behind other lexemes, a scanner has found its own, moved, and then those. -/
theorem latestFirst_behind (scanner : Scanner) :
    (scanner.behind distance earlier).latestFirst =
      scanner.latestFirst.map (Lexeme.mapSpan (Span.shift distance)) ++ earlier := by
  obtain ⟨offset, finished, pending⟩ := scanner
  cases pending <;> rfl

theorem start_behind (offset : Nat) (finished : List Lexeme) (c : Char) :
    start (offset + distance) (finished.map (Lexeme.mapSpan (Span.shift distance)) ++ earlier) c =
      (start offset finished c).behind distance earlier := by
  have next : offset + distance + c.utf8Size = offset + c.utf8Size + distance := by omega
  unfold start
  rw [next]
  split
  · rfl
  · split
    · rfl
    · split
      · rfl
      · split <;> rfl

theorem step_behind (scanner : Scanner) (c : Char) :
    (scanner.behind distance earlier).step c = (scanner.step c).behind distance earlier := by
  have lexemes := latestFirst_behind distance earlier scanner
  obtain ⟨offset, finished, pending⟩ := scanner
  have next : offset + distance + c.utf8Size = offset + c.utf8Size + distance := by omega
  cases pending with
  | gap => exact start_behind distance earlier offset finished c
  | comment =>
    simp only [step, behind, Pending.shift, next]
    by_cases lineBreak : c = '\n'
    · simp only [lineBreak, ↓reduceIte]
    · simp only [lineBreak, ↓reduceIte]
  | atom first letters =>
    by_cases ends : endsAtom c
    · simp only [step, behind, Pending.shift, ends, ↓reduceIte] at lexemes ⊢
      rw [lexemes]
      exact start_behind distance earlier offset _ c
    · simp only [step, behind, Pending.shift, ends, Bool.false_eq_true, ↓reduceIte, next]

/-- A scanner that is further on does the same with all characters. -/
theorem run_behind (scanner : Scanner) (cs : List Char) :
    (scanner.behind distance earlier).run cs = (scanner.run cs).behind distance earlier := by
  induction cs generalizing scanner with
  | nil => rfl
  | cons c rest ih => rw [run_cons, run_cons, step_behind, ih]

/-- A blank belongs to nothing. -/
theorem start_blank {c : Char} (blank : isBlank c) (offset : Nat) (finished : List Lexeme) :
    start offset finished c = ⟨offset + c.utf8Size, finished, .gap⟩ := by
  have opener : c ≠ '(' := by
    rintro rfl
    cases blank
  have closer : c ≠ ')' := by
    rintro rfl
    cases blank
  have comment : c ≠ ';' := by
    rintro rfl
    cases blank
  simp only [start, opener, closer, comment, blank, ↓reduceIte]

/-- A line break ends the atom or the comment before it. -/
theorem step_lineBreak (scanner : Scanner) :
    scanner.step '\n' = initial.behind (scanner.offset + 1) scanner.latestFirst := by
  have oneByte : '\n'.utf8Size = 1 := rfl
  obtain ⟨offset, finished, pending⟩ := scanner
  cases pending <;>
    simp [step, start, endsAtom, isBlank, latestFirst, behind, initial, Pending.shift, oneByte]

/-- A step goes on by the bytes of its character. -/
theorem offset_step (scanner : Scanner) (c : Char) :
    (scanner.step c).offset = scanner.offset + c.utf8Size := by
  have started : ∀ offset finished, (start offset finished c).offset = offset + c.utf8Size := by
    intro offset finished
    unfold start
    split
    · rfl
    · split
      · rfl
      · split
        · rfl
        · split <;> rfl
  obtain ⟨offset, finished, pending⟩ := scanner
  cases pending with
  | gap => exact started offset finished
  | comment => rfl
  | atom first letters =>
    by_cases ends : endsAtom c
    · simp only [step, ends, ↓reduceIte, started]
    · simp only [step, ends, Bool.false_eq_true, ↓reduceIte]

/-- A scan counts the bytes it has read. -/
theorem offset_run (scanner : Scanner) (cs : List Char) :
    (scanner.run cs).offset = scanner.offset + (String.ofList cs).utf8ByteSize := by
  induction cs generalizing scanner with
  | nil => rfl
  | cons c rest ih =>
    rw [run_cons, ih, offset_step, utf8ByteSize_ofList_cons, Nat.add_assoc]

/-- At the end, a scanner stands behind all bytes of its text. -/
theorem offset_run_initial (source : String) :
    (initial.run source.toList).offset = source.utf8ByteSize := by
  rw [offset_run, String.ofList_toList]
  exact Nat.zero_add _

theorem latestFirst_run_initial (source : String) :
    (initial.run source.toList).latestFirst = (lexemes source).reverse :=
  (List.reverse_reverse _).symm

end Scanner

/-- The lexemes of two texts, with a line break between them. -/
theorem lexemes_join (first second : String) :
    lexemes (first ++ "\n" ++ second) =
      lexemes first ++
        (lexemes second).map (Lexeme.mapSpan (Span.shift (first.utf8ByteSize + 1))) := by
  have characters : (first ++ "\n" ++ second).toList =
      first.toList ++ '\n' :: second.toList := by
    simp [String.toList_append]
  rw [lexemes, lexemesOf, characters, Scanner.run_append, Scanner.run_cons, Scanner.step_lineBreak,
    Scanner.run_behind, Scanner.latestFirst_behind, Scanner.offset_run_initial,
    List.reverse_append, ← List.map_reverse]
  rfl

end SubstLisp
