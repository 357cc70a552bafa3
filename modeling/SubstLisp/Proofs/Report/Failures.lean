import SubstLisp.Proofs.Report.Pointing
import SubstLisp.Proofs.Session.FailureSpans

/-! # Where the report of a failure points

A failure comes with the bytes it concerns, and its report takes them for characters. So it points
at the failure if and only if every character before takes a single byte, and the bytes that it
takes for characters do not run past the text (`SubstLisp.report_points_at_failure_iff`).
-/

namespace SubstLisp

/-! ### Bytes and characters -/

/-- A text has at least as many bytes as characters. -/
theorem length_le_utf8ByteSize (cs : List Char) :
    cs.length ≤ (String.ofList cs).utf8ByteSize := by
  induction cs with
  | nil => exact Nat.zero_le _
  | cons c rest ih =>
    have some := c.utf8Size_pos
    rw [utf8ByteSize_ofList_cons, List.length_cons]
    omega

/-- Bytes may be counted as characters where each character takes one. -/
theorem utf8ByteSize_eq_length_iff {cs : List Char} :
    (String.ofList cs).utf8ByteSize = cs.length ↔ ∀ c ∈ cs, c.utf8Size = 1 := by
  induction cs with
  | nil => simp
  | cons c rest ih =>
    have some := c.utf8Size_pos
    have others := length_le_utf8ByteSize rest
    rw [utf8ByteSize_ofList_cons, List.length_cons, List.forall_mem_cons, ← ih]
    omega

/-- What lies in a text is some of its characters. -/
theorem Span.LiesIn.exists_covers {source : String} {span : Span} (inside : span.LiesIn source) :
    ∃ part, span.Covers source.toList part := by
  obtain ⟨left, right, whole, start⟩ := String.Pos.Raw.isValid_iff_exists_append.mp inside.start
  obtain ⟨front, back, again, stop⟩ := String.Pos.Raw.isValid_iff_exists_append.mp inside.stop
  have startsAt : span.start = left.utf8ByteSize := congrArg String.Pos.Raw.byteIdx start
  have stopsAt : span.stop = front.utf8ByteSize := congrArg String.Pos.Raw.byteIdx stop
  have same : left.toList ++ right.toList = front.toList ++ back.toList := by
    rw [← String.toList_append, ← String.toList_append, ← whole, again]
  obtain ⟨part, longer, rest⟩ | ⟨more, shorter, -⟩ := List.append_eq_append_iff.mp same
  · refine ⟨part, left.toList, back.toList, ?_, ?_, ?_⟩
    · rw [again, String.toList_append, longer]
    · rw [startsAt, String.ofList_toList]
    · rw [stopsAt, ← longer, String.ofList_toList]
  · have size := utf8ByteSize_ofList_append front.toList more
    have nonempty := inside.nonempty
    rw [← shorter, String.ofList_toList, String.ofList_toList] at size
    omega

/-! ### Failures in a new session -/

theorem Interprets.readProgram_eq_error {source : String} {cause : ReadError}
    {environment after : Environment}
    (interprets : Interprets source environment (.error (.reading cause), after)) :
    readProgram source = .error cause := by
  cases read : readProgram source with
  | error reason =>
    cases interprets.of_readProgram_error read
    rfl
  | ok program =>
    obtain ⟨⟨result, last⟩, -, same⟩ := (interprets_iff_runs read).mp interprets
    cases result <;> cases same

/-- Without earlier texts, a failure lies in the text that is interpreted. -/
theorem Interprets.failure_liesIn {source : String} {failure : Failure} {after : Environment}
    (interprets : Interprets source .standard (.error failure, after)) :
    failure.span.LiesIn source := by
  cases failure with
  | reading cause =>
    obtain ⟨lexeme, member, same⟩ :=
      exists_lexeme_of_readProgram_eq_error interprets.readProgram_eq_error
    have liesIn : cause.span.LiesIn source := same ▸ liesIn_of_mem_lexemes member
    exact liesIn
  | evaluation cause =>
    obtain ⟨text, member, program, read, node, inside, part, within, same⟩ :=
      (interprets.spans_seen (List.mem_singleton_self source) Likeness.binds_standard).1 cause rfl
    obtain rfl := List.mem_singleton.mp member
    have liesIn : cause.span.LiesIn text :=
      same ▸ liesIn_of_readProgram read node inside part within
    exact liesIn

/-- **When reports point at failures.** The report of a failure in a new session names the place of
a character, behind as many others as there are bytes before the failure. So it points at the
failure if and only if all characters before take one byte each, and the text has no fewer
characters than there are bytes up to the end of the failure, or one less if a line starts behind
its first byte. -/
theorem report_points_at_failure_iff {source : String} {failure : Failure} {after : Environment}
    (interprets : Interprets source .standard (.error failure, after)) (name : String) :
    ∃ before part behind, source.toList = before ++ part ++ behind ∧
      failure.span = ⟨(String.ofList before).utf8ByteSize,
        (String.ofList (before ++ part)).utf8ByteSize⟩ ∧
      (∀ line column, (∃ below, Locates (failure.report.render name source) failure.message name
          line column below) ↔
        (failure.span.start ≤ source.toList.length ∧
          failure.span.stop ≤ source.toList.length + 1) ∧
        IsPlace source.toList failure.span.start line column) ∧
      (PointsAt (failure.report.render name source) failure.message name source.toList
          before.length ↔
        (∀ c ∈ before, c.utf8Size = 1) ∧ failure.span.stop ≤ source.toList.length + 1 ∧
          (failure.span.stop = source.toList.length + 1 →
            ∃ start, before.length < start ∧ startsLine source.toList start)) := by
  have liesIn := interprets.failure_liesIn
  obtain ⟨part, before, behind, whole, start, stop⟩ := liesIn.exists_covers
  refine ⟨before, part, behind, whole, ?_, ?_, ?_⟩
  · rw [← start, ← stop]
  · exact fun line column => Report.locates_render_iff
  · rw [← utf8ByteSize_eq_length_iff, ← start]
    exact Report.pointsAt_render_iff liesIn.nonempty

/-- Only what comes behind the failure has a wide character. -/
theorem report_points_at_failure_iff_before_a_wide_character :
    let failure : Failure := .evaluation (.unbound "zed" ⟨5, 8⟩)
    Interprets "#t\r\n(zed 'é')" .standard (.error failure, .standard) ∧
      PointsAt (failure.report.render "one.scm" "#t\r\n(zed 'é')") failure.message "one.scm"
        "#t\r\n(zed 'é')".toList 5 := by
  intro failure
  have fails : Interprets "#t\r\n(zed 'é')" .standard (.error failure, .standard) := by
    have scanned : lexemes "#t\r\n(zed 'é')" =
        [⟨.atom "#t", ⟨0, 2⟩⟩, ⟨.opener, ⟨4, 5⟩⟩, ⟨.atom "zed", ⟨5, 8⟩⟩, ⟨.atom "'é'", ⟨9, 13⟩⟩,
          ⟨.closer, ⟨13, 14⟩⟩] := rfl
    refine ⟨3, ?_⟩
    rw [interpret]
    simp only [readProgram, scanned, Reader.all, Reader.ofLexemes, readAll, readInside]
    rfl
  obtain ⟨before, part, behind, whole, span, -, points⟩ :=
    report_points_at_failure_iff fails "one.scm"
  -- The failure starts behind five characters of one byte each.
  have same : before ++ (part ++ behind) = ['#', 't', '\r', '\n', '('] ++ "zed 'é')".toList := by
    rw [← List.append_assoc, ← whole]
    rfl
  obtain ⟨rfl, -⟩ := append_inj_of_utf8ByteSize same (congrArg Span.start span).symm
  have single : ∀ c ∈ ['#', 't', '\r', '\n', '('], c.utf8Size = 1 :=
    utf8ByteSize_eq_length_iff.mp rfl
  have room : failure.span.stop < "#t\r\n(zed 'é')".toList.length + 1 := by decide
  exact ⟨fails, points.mpr ⟨single, room.le, fun ends => absurd ends room.ne⟩⟩

/-- A comment with a wide character moves the place that is named from the first character of the
second line to the next one. -/
theorem report_misses_a_failure :
    let failure : Failure := .evaluation (.unbound "zed" ⟨4, 7⟩)
    Interprets ";é\nzed" .standard (.error failure, .standard) ∧
      (String.ofList [';', 'é', '\n']).utf8ByteSize = failure.span.start ∧
      ";é\nzed".toList = [';', 'é', '\n'] ++ ['z', 'e', 'd'] ∧
      failure.report.render "one.scm" ";é\nzed" =
        "Error: undefined variable zed\n   ╭─[ one.scm:2:2 ]\n   │\n   │ \n   │ \n" ++
          "   │ Note: error kind: undefined variable\n───╯\n" ∧
      ¬PointsAt (failure.report.render "one.scm" ";é\nzed") failure.message "one.scm"
        ";é\nzed".toList 3 := by
  intro failure
  have fails : Interprets ";é\nzed" .standard (.error failure, .standard) := by
    have scanned : lexemes ";é\nzed" = [⟨.atom "zed", ⟨4, 7⟩⟩] := rfl
    refine ⟨2, ?_⟩
    rw [interpret]
    simp only [readProgram, scanned, Reader.all, Reader.ofLexemes, readAll, readInside]
    rfl
  refine ⟨fails, rfl, rfl, by decide +kernel, ?_⟩
  have nonempty : failure.report.span.start < failure.report.span.stop := by decide
  exact fun points => absurd ((Report.pointsAt_render_iff nonempty).mp points).1 (by decide)

end SubstLisp
