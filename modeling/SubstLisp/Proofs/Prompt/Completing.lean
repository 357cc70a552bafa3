import SubstLisp.Prompt.Completion
import SubstLisp.Proofs.Evaluation.Naming
import SubstLisp.Proofs.Prompt.ByteOrder
import SubstLisp.Proofs.Session.ReadBack

/-! # What an atom can be completed to

Behind an atom, the completions are what it lacks of the names that start with it: the bound names,
the builtin procedures, and the other keywords. Whatever a session has bound is read as one atom, so
writing a completion behind the atom only makes the atom longer (`SubstLisp.session_completions`).
-/

namespace SubstLisp

/-- A name that an atom can be completed to. -/
inductive Environment.Offers (environment : Environment) : String → Prop where
  | bound {name : String} {value : Value} (found : environment.lookup? name = some value) :
      Offers environment name
  | builtin {procedure : Builtin} (provided : environment.provides procedure) :
      Offers environment procedure.spelling
  | keyword (word : Keyword) : Offers environment word.spelling

/-- The last of the lexemes is the atom `typed`, and it ends where the text does. -/
def EndsInAtom (text : String) (earlier : List Lexeme) (typed : String) (start : Nat) : Prop :=
  lexemes text = earlier ++ [⟨.atom typed, ⟨start, text.utf8ByteSize⟩⟩]

/-- The completions of the atom `typed`, which ends where the text does. -/
structure CompletesAtom (environment : Environment) (text : String) (earlier : List Lexeme)
    (typed : String) (start : Nat) (found : List String) : Prop where
  inOrder : found.Pairwise fun first second => bytes first < bytes second
  mem : ∀ more, more ∈ found ↔ more ≠ "" ∧ environment.Offers (typed ++ more)
  /-- With a completion behind it, the text has the same lexemes, but for a longer atom. -/
  insertable : ∀ more ∈ found, EndsInAtom (text ++ more) earlier (typed ++ more) start

/-! ### The atom at the cursor -/

/-- As many bytes as some characters have hold just these characters. -/
theorem takeBytes_append (before after : List Char) :
    takeBytes (String.ofList before).utf8ByteSize (before ++ after) = before := by
  induction before with
  | nil =>
    cases after with
    | nil => rfl
    | cons c rest =>
      have wide : ¬c.utf8Size ≤ 0 := Nat.not_le_of_gt c.utf8Size_pos
      exact if_neg wide
  | cons c rest ih =>
    rw [utf8ByteSize_ofList_cons, List.cons_append, takeBytes, if_pos (Nat.le_add_right _ _),
      Nat.add_sub_cancel_left, ih]

/-- A text ends in an atom just if an atom is its last lexeme and stops where the text does. -/
theorem trailingAtom?_eq_some_iff {text typed : String} :
    trailingAtom? text.toList = some typed ↔
      ∃ earlier start, EndsInAtom text earlier typed start := by
  rw [trailingAtom?, Scanner.latestFirst_run_initial, Scanner.offset_run_initial]
  constructor
  · intro found
    split at found
    case h_1 last span earlier latest =>
      split at found
      case isTrue ends =>
        cases found
        refine ⟨earlier.reverse, span.start, ?_⟩
        rw [EndsInAtom, ← ends, ← List.reverse_cons, ← latest, List.reverse_reverse]
      case isFalse => cases found
    case h_2 => cases found
  · rintro ⟨earlier, start, ends⟩
    rw [ends, List.reverse_append, List.reverse_singleton, List.singleton_append]
    exact if_pos rfl

/-- What stands behind the cursor does not matter for its completions. -/
theorem completions_eq (environment : Environment) (before after : String) :
    completions environment (before ++ after) before.utf8ByteSize =
      (trailingAtom? before.toList).elim [] fun typed =>
        environment.completionNames.filterMap (continuation? typed.toList) := by
  have cut := takeBytes_append before.toList after.toList
  rw [String.ofList_toList, ← String.toList_append] at cut
  rw [completions, cut]
  cases trailingAtom? before.toList <;> rfl

/-! ### Atoms that get longer -/

namespace Scanner

/-- An atom that is finished ends before the latest character. -/
def AtomsEnd (scanner : Scanner) : Prop :=
  ∀ text span, ⟨.atom text, span⟩ ∈ scanner.finished → span.stop < scanner.offset

theorem atomsEnd_start {offset : Nat} {finished : List Lexeme} (c : Char)
    (ended : ∀ text span, ⟨.atom text, span⟩ ∈ finished → span.stop ≤ offset) :
    (start offset finished c).AtomsEnd := by
  have before : ∀ text span, ⟨.atom text, span⟩ ∈ finished → span.stop < offset + c.utf8Size :=
    fun text span member =>
      Nat.lt_of_le_of_lt (ended text span member) (Nat.lt_add_of_pos_right c.utf8Size_pos)
  unfold start
  split
  · intro text span member
    exact before text span (List.mem_of_ne_of_mem (by simp) member)
  · split
    · intro text span member
      exact before text span (List.mem_of_ne_of_mem (by simp) member)
    · split
      · exact before
      · split
        · exact before
        · exact before

theorem AtomsEnd.step {scanner : Scanner} (ended : scanner.AtomsEnd) (c : Char) :
    (scanner.step c).AtomsEnd := by
  obtain ⟨offset, finished, pending⟩ := scanner
  have further : ∀ text span, ⟨.atom text, span⟩ ∈ finished → span.stop < offset + c.utf8Size :=
    fun text span member => Nat.lt_add_right _ (ended text span member)
  cases pending with
  | gap => exact atomsEnd_start c fun text span member => Nat.le_of_lt (ended text span member)
  | comment => exact further
  | atom first letters =>
    by_cases ends : endsAtom c
    · simp only [Scanner.step, ends, ↓reduceIte]
      refine atomsEnd_start c fun text span member => ?_
      obtain same | earlier := List.mem_cons.mp member
      · cases same
        exact Nat.le_refl _
      · exact Nat.le_of_lt (ended text span earlier)
    · simp only [Scanner.step, ends, Bool.false_eq_true, ↓reduceIte]
      exact further

/-- However far a scanner goes, its finished atoms end before the place it has come to. -/
theorem AtomsEnd.run {scanner : Scanner} (ended : scanner.AtomsEnd) (cs : List Char) :
    (scanner.run cs).AtomsEnd := by
  induction cs generalizing scanner with
  | nil => exact ended
  | cons c rest ih => exact ih (ended.step c)

/-- An atom that ends with the latest character is not finished. -/
theorem AtomsEnd.pending_eq {scanner : Scanner} (ended : scanner.AtomsEnd) {text : String}
    {start : Nat} {earlier : List Lexeme}
    (latest : scanner.latestFirst = ⟨.atom text, ⟨start, scanner.offset⟩⟩ :: earlier) :
    ∃ letters, String.ofList letters.reverse = text ∧
      scanner = ⟨scanner.offset, earlier, .atom start letters⟩ := by
  obtain ⟨offset, finished, pending⟩ := scanner
  have finished : finished ≠ ⟨.atom text, ⟨start, offset⟩⟩ :: earlier := by
    rintro rfl
    exact Nat.lt_irrefl _ (ended text _ List.mem_cons_self)
  cases pending with
  | gap => exact absurd latest finished
  | comment => exact absurd latest finished
  | atom first letters =>
    obtain ⟨same, rfl⟩ := List.cons.inj latest
    cases same
    exact ⟨letters, rfl, rfl⟩

end Scanner

/-- More letters behind an atom make it longer. -/
theorem EndsInAtom.append {text typed more : String} {earlier : List Lexeme} {start : Nat}
    (ends : EndsInAtom text earlier typed start) (inAtom : ∀ c ∈ more.toList, endsAtom c = false) :
    EndsInAtom (text ++ more) earlier (typed ++ more) start := by
  have ended : (Scanner.initial.run text.toList).AtomsEnd :=
    Scanner.AtomsEnd.run (fun _ _ => List.not_mem_nil.elim) _
  have latest : (Scanner.initial.run text.toList).latestFirst =
      ⟨.atom typed, ⟨start, (Scanner.initial.run text.toList).offset⟩⟩ :: earlier.reverse := by
    rw [Scanner.latestFirst_run_initial, Scanner.offset_run_initial, ends, List.reverse_append,
      List.reverse_singleton, List.singleton_append]
  obtain ⟨letters, rfl, scanned⟩ := ended.pending_eq latest
  rw [Scanner.offset_run_initial] at scanned
  rw [EndsInAtom, lexemes, lexemesOf, String.toList_append, Scanner.run_append, scanned,
    Scanner.run_inAtom inAtom]
  simp only [Scanner.latestFirst, List.reverse_cons, List.reverse_reverse, List.reverse_append,
    String.ofList_append, String.ofList_toList, String.utf8ByteSize_append]

/-! ### Names in order -/

theorem nodup_eraseDups (names : List String) : names.eraseDups.Nodup := by
  induction size : names.length using Nat.strong_induction_on generalizing names with
  | _ size ih =>
    cases names with
    | nil => exact List.nodup_nil
    | cons name rest =>
      have fewer := List.length_filter_le (fun other => !other == name) rest
      rw [List.length_cons] at size
      rw [List.eraseDups_cons, List.nodup_cons, List.mem_eraseDups, List.mem_filter]
      exact ⟨by simp, ih _ (by omega) _ rfl⟩

/-- Sorting neither adds a name nor drops one. -/
theorem mem_sortNames_iff {name : String} {names : List String} :
    name ∈ sortNames names ↔ name ∈ names := by
  rw [sortNames, List.mem_mergeSort, List.mem_eraseDups]

/-- Sorted names are in order, and no two are the same. -/
theorem pairwise_sortNames (names : List String) : (sortNames names).Pairwise (· < ·) := by
  have distinct : (sortNames names).Nodup :=
    (List.mergeSort_perm _ _).nodup_iff.mpr (nodup_eraseDups names)
  have sorted : (sortNames names).Pairwise fun a b => !(b < a : Bool) := by
    refine List.pairwise_mergeSort ?_ ?_ _
    · intro a b c
      simp only [Bool.not_eq_true', decide_eq_false_iff_not, not_lt]
      exact le_trans
    · intro a b
      simp only [Bool.or_eq_true, Bool.not_eq_true', decide_eq_false_iff_not, not_lt]
      exact le_total a b
  refine (sorted.and distinct).imp fun {a b} both => ?_
  simp only [Bool.not_eq_true', decide_eq_false_iff_not, not_lt] at both
  exact lt_of_le_of_ne both.1 both.2

/-- The names to complete are the bound ones and those of keywords and provided builtins. -/
theorem Environment.mem_completionNames_iff {environment : Environment} {name : String} :
    name ∈ environment.completionNames ↔ environment.Offers name := by
  rw [completionNames, mem_sortNames_iff, List.mem_append, names, mem_sortNames_iff,
    List.mem_append]
  constructor
  · rintro ((bound | provided) | keyword)
    · obtain ⟨entry, member, rfl⟩ := List.mem_map.mp bound
      have isSome : (environment.lookup? entry.1).isSome :=
        List.lookup_isSome_iff.mpr ⟨entry, member, beq_self_eq_true entry.1⟩
      obtain ⟨value, found⟩ := Option.isSome_iff_exists.mp isSome
      exact .bound found
    · obtain ⟨procedure, member, rfl⟩ := List.mem_map.mp provided
      exact .builtin (List.contains_iff_mem.mpr member)
    · obtain ⟨word, -, rfl⟩ := List.mem_map.mp keyword
      exact .keyword word
  · intro offers
    cases offers with
    | @bound _ value found =>
      exact .inl (.inl (List.mem_map.mpr ⟨_, Bindings.mem_of_lookup found, rfl⟩))
    | builtin provided =>
      exact .inl (.inr (List.mem_map.mpr ⟨_, List.contains_iff_mem.mp provided, rfl⟩))
    | keyword word => exact .inr (List.mem_map.mpr ⟨word, word.mem_all, rfl⟩)

/-- A name continues what is typed just if it is that and more. -/
theorem continuation?_eq_some_iff {typed name more : String} :
    continuation? typed.toList name = some more ↔ more ≠ "" ∧ name = typed ++ more := by
  rw [continuation?]
  constructor
  · intro found
    split at found
    case isTrue both =>
      rw [Bool.and_eq_true, List.isPrefixOf_iff_prefix, decide_eq_true_eq] at both
      obtain ⟨⟨rest, split⟩, longer⟩ := both
      rw [← split, List.drop_left, Option.some.injEq] at found
      subst found
      refine ⟨?_, ?_⟩
      · intro empty
        have nothing : rest = [] := by simpa using congrArg String.toList empty
        rw [← split, nothing, List.append_nil] at longer
        exact Nat.lt_irrefl _ longer
      · rw [← String.toList_inj, String.toList_append, String.toList_ofList, split]
    case isFalse => cases found
  · rintro ⟨nonempty, rfl⟩
    have longer : 0 < more.toList.length := by
      rw [List.length_pos_iff]
      exact fun empty => nonempty (String.toList_eq_nil_iff.mp empty)
    rw [String.toList_append, List.drop_left, String.ofList_toList, if_pos]
    rw [Bool.and_eq_true, List.isPrefixOf_iff_prefix, decide_eq_true_eq, List.length_append]
    exact ⟨List.prefix_append _ _, Nat.lt_add_of_pos_right longer⟩

/-- Texts with the same start are ordered by the rest. -/
theorem lt_of_append_lt {typed a b : String} (lt : typed ++ a < typed ++ b) : a < b := by
  obtain less | rfl | greater := lt_trichotomy a b
  · exact less
  · exact absurd lt (lt_irrefl _)
  · rw [String.lt_iff_toList_lt] at greater
    have other : typed ++ b < typed ++ a := by
      rw [String.lt_iff_toList_lt, String.toList_append, String.toList_append]
      exact List.append_left_lt greater
    exact absurd lt (lt_asymm other)

/-- What continues a typed text leads to one of the names. -/
theorem mem_continuations_iff {typed more : String} {names : List String} :
    more ∈ names.filterMap (continuation? typed.toList) ↔ more ≠ "" ∧ typed ++ more ∈ names := by
  rw [List.mem_filterMap]
  simp only [continuation?_eq_some_iff]
  constructor
  · rintro ⟨name, member, nonempty, rfl⟩
    exact ⟨nonempty, member⟩
  · rintro ⟨nonempty, member⟩
    exact ⟨_, member, nonempty, rfl⟩

/-- What is missing of names in order is in order, also by its bytes. -/
theorem pairwise_continuations (typed : String) {names : List String}
    (inOrder : names.Pairwise (· < ·)) :
    (names.filterMap (continuation? typed.toList)).Pairwise
      fun first second => bytes first < bytes second := by
  refine inOrder.filterMap _ fun first second lt a isFirst b isSecond => ?_
  obtain ⟨-, rfl⟩ := continuation?_eq_some_iff.mp isFirst
  obtain ⟨-, rfl⟩ := continuation?_eq_some_iff.mp isSecond
  exact bytes_lt_of_lt (lt_of_append_lt lt)

/-! ### Names that are read as atoms -/

theorem Keyword.isAtomText (word : Keyword) : IsAtomText word.spelling.toList := by
  rcases word with procedure | form
  · cases procedure <;> decide
  · cases form <;> decide

theorem IsAtomText.inAtom {cs : List Char} (isAtom : IsAtomText cs) :
    ∀ c ∈ cs, endsAtom c = false := by
  cases cs with
  | nil => exact fun _ => List.not_mem_nil.elim
  | cons first rest => exact isAtom.2

/-- What a session binds has a name that is read as one atom. -/
theorem Session.names {history : List (String × Except Failure (List Value))}
    {environment : Environment} (session : Session history environment) :
    legibility.Names environment := by
  -- Values are looked at as well, since a procedure may bind names that occur in its body.
  refine (session.invariant (P := fun e => legibility.Binds e ∧ legibility.Names e)
    (Q := fun _ => True) ⟨Likeness.binds_standard, Likeness.names_standard⟩ ?_).1.2
  intro source before interpretation interprets known
  refine ⟨trivial, ?_⟩
  cases read : readProgram source with
  | error cause =>
    obtain rfl := interprets.of_readProgram_error read
    exact known
  | ok program =>
    obtain ⟨outcome, runs, rfl⟩ := (interprets_iff_runs read).mp interprets
    have nodes : ∀ node ∈ program, legibility.Nodes node node := fun node member =>
      Likeness.nodes_self (fun _ _ => Iff.rfl) (legible_of_readProgram read node member)
    exact legibility_lawful.keeps_names (fun _ _ => id) (fun _ => trivial) nodes known.1 known.2
      runs

/-- Every name that a session offers can be typed as an atom. -/
theorem Session.isAtomText_of_offers {history : List (String × Except Failure (List Value))}
    {environment : Environment} (session : Session history environment) {name : String}
    (offers : environment.Offers name) : IsAtomText name.toList := by
  cases offers with
  | bound found =>
    have legible : (Token.identifier name).Legible :=
      session.names name (by rw [found]; rfl) trivial
    exact legible.isAtom
  | @builtin procedure provided => exact (Keyword.builtin procedure).isAtomText
  | keyword word => exact word.isAtomText

/-- **Completions are the missing parts of names, and they fit in.** -/
theorem session_completions {history : List (String × Except Failure (List Value))}
    {environment : Environment} (session : Session history environment) (before after : String) :
    let found := completions environment (before ++ after) before.utf8ByteSize
    (∀ earlier typed start, EndsInAtom before earlier typed start →
      CompletesAtom environment before earlier typed start found) ∧
    ((∀ earlier typed start, ¬EndsInAtom before earlier typed start) → found = []) := by
  intro found
  have cut : found = (trailingAtom? before.toList).elim [] fun typed =>
      environment.completionNames.filterMap (continuation? typed.toList) :=
    completions_eq environment before after
  refine ⟨?atom, ?elsewhere⟩
  case atom =>
    intro earlier typed start ends
    have whole : found = environment.completionNames.filterMap (continuation? typed.toList) := by
      rw [cut, trailingAtom?_eq_some_iff.mpr ⟨earlier, start, ends⟩, Option.elim_some]
    have mem : ∀ more, more ∈ found ↔ more ≠ "" ∧ environment.Offers (typed ++ more) := by
      intro more
      rw [whole, mem_continuations_iff, Environment.mem_completionNames_iff]
    refine ⟨?inOrder, mem, ?insertable⟩
    case inOrder =>
      rw [whole]
      exact pairwise_continuations typed (pairwise_sortNames _)
    case insertable =>
      intro more member
      have isAtom := session.isAtomText_of_offers ((mem more).mp member).2
      refine ends.append fun c inside => isAtom.inAtom c ?_
      rw [String.toList_append]
      exact List.mem_append_right _ inside
  case elsewhere =>
    intro notAtom
    have none : trailingAtom? before.toList = none := by
      refine Option.eq_none_iff_forall_ne_some.mpr fun typed trailing => ?_
      obtain ⟨earlier, start, ends⟩ := trailingAtom?_eq_some_iff.mp trailing
      exact notAtom earlier typed start ends
    rw [cut, none, Option.elim_none]

/-- A new name and a builtin procedure for the same atom, in the middle of a longer one. -/
theorem session_completions_of_a_new_name :
    let environment := Environment.standard.define "sqλ" (.token (.boolean true))
    let earlier : List Lexeme := [⟨.opener, ⟨0, 1⟩⟩]
    let found := completions environment ("(sq" ++ "x)") "(sq".utf8ByteSize
    Session [("(define sqλ #t)", .ok [])] environment ∧ EndsInAtom "(sq" earlier "sq" 1 ∧
    CompletesAtom environment "(sq" earlier "sq" 1 found ∧ "rt" ∈ found ∧ "λ" ∈ found := by
  intro environment earlier found
  have defined : Interprets "(define sqλ #t)" .standard (.ok [], environment) := by
    have scanned : lexemes "(define sqλ #t)" =
        [⟨.opener, ⟨0, 1⟩⟩, ⟨.atom "define", ⟨1, 7⟩⟩, ⟨.atom "sqλ", ⟨8, 12⟩⟩,
          ⟨.atom "#t", ⟨13, 15⟩⟩, ⟨.closer, ⟨15, 16⟩⟩] := rfl
    refine ⟨3, ?_⟩
    rw [interpret]
    simp only [readProgram, scanned, Reader.all, Reader.ofLexemes, readAll, readInside]
    rfl
  have session : Session [("(define sqλ #t)", .ok [])] environment := Session.start.next defined
  have ends : EndsInAtom "(sq" earlier "sq" 1 := rfl
  have completes : CompletesAtom environment "(sq" earlier "sq" 1 found :=
    (session_completions session "(sq" "x)").1 earlier "sq" 1 ends
  have builtin : environment.Offers ("sq" ++ "rt") := .keyword (.builtin .sqrt)
  have bound : environment.Offers ("sq" ++ "λ") :=
    .bound (environment.lookup?_define "sqλ" "sqλ" (.token (.boolean true)))
  exact ⟨session, ends, completes, (completes.mem _).mpr ⟨by decide, builtin⟩,
    (completes.mem _).mpr ⟨by decide, bound⟩⟩

end SubstLisp
