import Mathlib.Data.Nat.Count
import SubstLisp.Report.Lines

/-! # Which line a character is in

A line starts at the first character of a text, and wherever a character follows a line terminator.
Cutting a text behind its terminators finds just these lines (`SubstLisp.isLineAt_lineAt`). No two
characters have the same line and the same place in it (`SubstLisp.IsLineAt.offset_unique`).
-/

namespace SubstLisp

/-- Whether a line starts at the character `offset`. A carriage return and the line feed behind it
are one terminator. -/
def startsLine (cs : List Char) : Nat → Bool
  | 0 => true
  | previous + 1 =>
    match cs[previous]?, cs[previous + 1]? with
    | some c, some next => endsLine c && !(c = '\r' && next = '\n')
    | _, _ => false

/-- How many lines start before the character `offset`. -/
def startsBefore (cs : List Char) (offset : Nat) : Nat :=
  Nat.count (fun start => startsLine cs start) offset

namespace Line

/-- How many characters are before the end of the line. -/
def stop (line : Line) : Nat :=
  line.start + line.characters.length

/-- A text has this line. -/
structure IsIn (line : Line) (cs : List Char) : Prop where
  text : ∃ before after, cs = before ++ line.characters ++ after ∧ before.length = line.start
  starts : startsLine cs line.start
  whole : ∀ start, startsLine cs start → start ≤ line.start ∨ line.stop ≤ start
  stops : line.stop = cs.length ∨ startsLine cs line.stop
  /-- Only a text without characters has a line without characters. -/
  empty : line.characters = [] → cs = []
  index : line.index = startsBefore cs line.start

end Line

/-- The character `offset` of a text is in this line. What comes behind the text would be in its
last line. -/
structure IsLineAt (cs : List Char) (offset : Nat) (line : Line) : Prop where
  isIn : line.IsIn cs
  start : line.start ≤ offset
  stop : offset < line.stop ∨ line.stop = cs.length

/-! ### Where lines start -/

/-- Whether a line starts behind a character depends on this one and the next. -/
theorem startsLine_behind {cs : List Char} {offset : Nat} (before : List Char) (c : Char)
    (after : List Char) (whole : cs = before ++ c :: after) (behind : offset = before.length + 1) :
    startsLine cs offset =
      after.head?.any fun next => endsLine c && !(c = '\r' && next = '\n') := by
  have here : cs[before.length]? = some c := by simp [whole]
  have next : cs[before.length + 1]? = after.head? := by
    rw [whole, List.getElem?_append_right (Nat.le_add_right _ 1), Nat.add_sub_cancel_left,
      List.getElem?_cons_succ, List.head?_eq_getElem?]
  rw [behind, startsLine, here, next]
  cases after.head? <;> rfl

theorem startsBefore_succ (cs : List Char) (offset : Nat) :
    startsBefore cs (offset + 1) = startsBefore cs offset + if startsLine cs offset then 1 else 0 :=
  Nat.count_succ _ _

/-- Up to the end of a line, one more line has started than before it. -/
theorem Line.IsIn.startsBefore_stop {line : Line} {cs : List Char} (isIn : line.IsIn cs)
    (nonempty : line.characters ≠ []) :
    startsBefore cs line.stop = line.index + 1 := by
  have upTo : ∀ more, more < line.characters.length →
      startsBefore cs (line.start + more + 1) = line.index + 1 := by
    intro more inside
    induction more with
    | zero => rw [Nat.add_zero, startsBefore_succ, if_pos isIn.starts, isIn.index]
    | succ more ih =>
      have noStart : ¬startsLine cs (line.start + (more + 1)) := by
        intro starts
        have outside := isIn.whole _ starts
        rw [Line.stop] at outside
        omega
      rw [startsBefore_succ, if_neg noStart, Nat.add_zero]
      exact ih (Nat.lt_of_succ_lt inside)
  have length := List.length_pos_iff.mpr nonempty
  have last := upTo (line.characters.length - 1) (by omega)
  rwa [Nat.add_assoc, Nat.sub_add_cancel length] at last

/-- No line starts at the end of a text, nor behind it. -/
theorem lt_length_of_startsLine {cs : List Char} {offset : Nat} (starts : startsLine cs offset) :
    offset = 0 ∨ offset < cs.length := by
  cases offset with
  | zero => exact .inl rfl
  | succ previous =>
    refine .inr (Nat.not_le.mp fun behind => ?_)
    simp [startsLine, List.getElem?_eq_none behind] at starts

section Unique

variable {cs : List Char}

theorem Line.IsIn.stop_le {line : Line} (isIn : line.IsIn cs) : line.stop ≤ cs.length := by
  obtain ⟨before, after, whole, start⟩ := isIn.text
  rw [whole, List.length_append, List.length_append, Line.stop, start]
  exact Nat.le_add_right _ _

theorem Line.IsIn.stop_le_of_start_eq {left right : Line} (first : left.IsIn cs)
    (second : right.IsIn cs) (start : left.start = right.start) : left.stop ≤ right.stop := by
  refine Nat.not_lt.mp fun longer => ?_
  obtain ends | next := second.stops
  · exact absurd first.stop_le (by omega)
  · obtain early | late := first.whole _ next
    · -- The line on the right is empty, so the text is.
      have none : right.characters = [] := by
        rw [Line.stop] at early
        exact List.length_eq_zero_iff.mp (by omega)
      obtain rfl := second.empty none
      exact absurd first.stop_le (by rw [List.length_nil]; omega)
    · omega

/-- The number of a line tells which one it is. -/
theorem Line.IsIn.unique {left right : Line} (first : left.IsIn cs) (second : right.IsIn cs)
    (same : left.index = right.index) : left = right := by
  have start : left.start = right.start := by
    have count := first.index.symm.trans (same.trans second.index)
    exact Nat.count_injective first.starts second.starts count
  have stop : left.stop = right.stop :=
    Nat.le_antisymm (first.stop_le_of_start_eq second start)
      (second.stop_le_of_start_eq first start.symm)
  have characters : left.characters = right.characters := by
    obtain ⟨before, after, whole, length⟩ := first.text
    obtain ⟨others, rest, again, lengthAgain⟩ := second.text
    rw [List.append_assoc] at whole again
    have tails := (List.append_inj (whole.symm.trans again) (by omega)).2
    rw [Line.stop, Line.stop] at stop
    exact List.append_inj_left tails (by omega)
  cases left
  cases right
  congr

namespace IsLineAt

variable {offset other : Nat} {left right line : Line}

/-- A line and a place in it determine a character. -/
theorem offset_unique (first : IsLineAt cs offset left) (second : IsLineAt cs other right)
    (index : left.index = right.index) (place : offset - left.start = other - right.start) :
    offset = other := by
  obtain rfl := first.isIn.unique second.isIn index
  have start := first.start
  have again := second.start
  omega

/-- No other line starts between the start of the line and the character. -/
theorem le_start (isLineAt : IsLineAt cs offset line) {start : Nat} (starts : startsLine cs start)
    (early : start ≤ offset) : start ≤ line.start := by
  obtain before | behind := isLineAt.isIn.whole start starts
  · exact before
  · have stop := isLineAt.stop
    have inside := lt_length_of_startsLine starts
    omega

/-- A character is in one line only. -/
theorem unique (first : IsLineAt cs offset left) (second : IsLineAt cs offset right) :
    left = right := by
  have start : left.start = right.start :=
    Nat.le_antisymm (second.le_start first.isIn.starts first.start)
      (first.le_start second.isIn.starts second.start)
  refine first.isIn.unique second.isIn ?_
  rw [first.isIn.index, second.isIn.index, start]

end IsLineAt

end Unique

/-! ### Cutting a text into lines -/

/-- The lines of a text from the line `index` on, which starts at the character `start`. -/
def AreLinesFrom (cs : List Char) (index start : Nat) : List (List Char) → Prop
  | [] => start = cs.length
  | line :: rest =>
    (Line.mk index start line).IsIn cs ∧ AreLinesFrom cs (index + 1) (start + line.length) rest

section Cutting

variable {cs before : List Char} {index : Nat}

/-- Characters that start where a line does, and in between no other, are a line if the next one
starts behind them or nothing is left. -/
theorem Line.IsIn.of_inside {characters after : List Char}
    (whole : cs = before ++ characters ++ after) (starts : startsLine cs before.length)
    (inside : ∀ start, before.length < start → start < before.length + characters.length →
      startsLine cs start = false)
    (empty : characters = [] → cs = [])
    (next : after ≠ [] → startsLine cs (before.length + characters.length))
    (count : index = startsBefore cs before.length) :
    (Line.mk index before.length characters).IsIn cs where
  starts := starts
  stops := by
    by_cases more : after = []
    · exact .inl (by simp [whole, more, Line.stop])
    · exact .inr (next more)
  empty := empty
  whole := by
    intro start isStart
    by_contra! between
    have noStart := inside start between.1 between.2
    rw [isStart] at noStart
    cases noStart
  text := ⟨before, after, whole, rfl⟩
  index := count

/-- If a line ends where the next one starts, it is the first of the lines. -/
theorem areLinesFrom_cons {line : List Char} {lines : List (List Char)} (rest : List Char)
    (nonempty : line ≠ []) (whole : cs = before ++ line ++ rest)
    (starts : startsLine cs before.length)
    (inside : ∀ start, before.length < start → start < before.length + line.length →
      startsLine cs start = false)
    (next : rest ≠ [] → startsLine cs (before ++ line).length)
    (count : index = startsBefore cs before.length)
    (later : index + 1 = startsBefore cs (before ++ line).length →
      AreLinesFrom cs (index + 1) (before ++ line).length lines) :
    AreLinesFrom cs index before.length (line :: lines) := by
  rw [List.length_append] at next later
  have isIn := Line.IsIn.of_inside whole starts inside (absurd · nonempty) next count
  exact ⟨isIn, later (isIn.startsBefore_stop nonempty).symm⟩

/-- One line after the other is cut off, if what is begun holds no start of another one. -/
theorem areLinesFrom_linesBehind {begun rest : List Char}
    (whole : cs = before ++ (begun.reverse ++ rest))
    (starts : begun.reverse ++ rest ≠ [] → startsLine cs before.length)
    (inside : ∀ start, before.length < start → start ≤ before.length + begun.length →
      startsLine cs start = false)
    (count : index = startsBefore cs before.length) :
    AreLinesFrom cs index before.length (linesBehind begun rest) := by
  -- Whether a line starts behind what is begun shows only with the next character, so the place
  -- right behind it is among those that have to hold no start.
  fun_induction linesBehind begun rest generalizing before index with
  | case1 begun none =>
    obtain rfl := List.isEmpty_iff.mp none
    simp [AreLinesFrom, whole]
  | case2 begun some =>
    rw [List.isEmpty_iff] at some
    rw [List.append_nil] at whole starts
    refine areLinesFrom_cons [] (by simpa using some) (by simpa using whole)
      (starts (by simpa using some)) ?_ (absurd rfl) count ?_
    · intro start later early
      rw [List.length_reverse] at early
      exact inside start later early.le
    · exact fun _ => congrArg List.length whole.symm
  | case3 begun rest ih =>
    have ends : rest ≠ [] → startsLine cs (before ++ (begun.reverse ++ ['\r', '\n'])).length := by
      intro more
      rw [startsLine_behind (before ++ begun.reverse ++ ['\r']) '\n' rest (by simp [whole])
        (by simp [Nat.add_assoc])]
      cases rest with
      | nil => exact absurd rfl more
      | cons next rest => rfl
    have together : startsLine cs (before.length + begun.length + 1) = false :=
      startsLine_behind (before ++ begun.reverse) '\r' ('\n' :: rest) (by simp [whole]) (by simp)
    refine areLinesFrom_cons rest (by simp) (by simp [whole]) (starts (by simp)) ?_ ends
      count ?_
    · intro start later early
      by_cases last : start = before.length + begun.length + 1
      · rw [last, together]
      · refine inside start later ?_
        simp only [List.length_append, List.length_reverse, List.length_cons, List.length_nil]
          at early
        omega
    · exact ih (by simp [whole]) ends (by simp; omega)
  | case4 begun c rest other terminator ih =>
    have ends : rest ≠ [] → startsLine cs (before ++ (c :: begun).reverse).length := by
      intro more
      rw [startsLine_behind (before ++ begun.reverse) c rest (by simp [whole])
        (by simp [Nat.add_assoc])]
      cases rest with
      | nil => exact absurd rfl more
      | cons next rest =>
        have apart : c ≠ '\r' ∨ next ≠ '\n' :=
          not_and_or.mp fun ⟨first, second⟩ => other rest first (second ▸ rfl)
        simpa [terminator] using apart
    refine areLinesFrom_cons rest (by simp) (by simp [whole]) (starts (by simp)) ?_ ends
      count ?_
    · intro start later early
      rw [List.length_reverse, List.length_cons] at early
      exact inside start later (by omega)
    · exact ih (by simp [whole]) ends (by simp; omega)
  | case5 begun c rest other goesOn ih =>
    refine ih (by simp [whole]) (by simpa using starts) ?_ count
    intro start later early
    by_cases last : start = before.length + begun.length + 1
    · rw [startsLine_behind (before ++ begun.reverse) c rest (by simp [whole])
        (by simp [last])]
      simp [goesOn]
    · refine inside start later ?_
      rw [List.length_cons] at early
      omega

end Cutting

/-- The line that is sought from an earlier one on is the one of the character. -/
theorem isLineAt_seek {cs : List Char} {offset : Nat} {line : Line} {others : List (List Char)}
    (isIn : line.IsIn cs) (start : line.start ≤ offset)
    (later : AreLinesFrom cs (line.index + 1) line.stop others) :
    IsLineAt cs offset (Line.seek offset line others) := by
  induction others generalizing line with
  | nil => exact ⟨isIn, start, .inr later⟩
  | cons next others ih =>
    rw [Line.seek]
    split
    case isTrue reached => exact ih later.1 reached later.2
    case isFalse before => exact ⟨isIn, start, .inl (Nat.not_le.mp before)⟩

/-- Cutting a text into lines finds the line of each character. -/
theorem isLineAt_lineAt (cs : List Char) (offset : Nat) :
    IsLineAt cs offset (lineAt cs offset) := by
  have lines : AreLinesFrom cs 0 0 (linesBehind [] cs) :=
    @areLinesFrom_linesBehind cs [] 0 [] cs rfl (fun _ => rfl) (by simp; omega) rfl
  rw [lineAt, splitLines]
  cases cut : linesBehind [] cs with
  | nil =>
    rw [cut] at lines
    obtain rfl := List.length_eq_zero_iff.mp lines.symm
    have isIn : (Line.mk 0 0 []).IsIn [] :=
      @Line.IsIn.of_inside [] [] 0 [] [] rfl rfl (by simp) (fun _ => rfl) (absurd rfl) rfl
    exact ⟨isIn, Nat.zero_le _, .inr rfl⟩
  | cons first others =>
    rw [cut] at lines
    refine isLineAt_seek lines.1 (Nat.zero_le _) ?_
    exact lines.2

end SubstLisp
