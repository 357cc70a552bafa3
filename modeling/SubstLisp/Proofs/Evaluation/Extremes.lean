import SubstLisp.Proofs.Evaluation.BuiltinResults
import SubstLisp.Proofs.Number.Order

/-! # The greatest and the least of some numbers

The procedures for the greatest and the least of their arguments go through them from the left and
keep the best one so far. Of exact arguments this is in the end one of them that none goes beyond,
which determines it (`SubstLisp.IsExtreme.unique`). So their order does not matter, and some that
stand together may be replaced by the best of them (`SubstLisp.extremes_exact`).
-/

namespace SubstLisp

/-- One of some exact numbers, with all of them up to it in an order of the rational numbers. -/
structure IsExtreme (upTo : Rat → Rat → Prop) (numbers : List ExactNumber) (best : ExactNumber) :
    Prop where
  mem : best ∈ numbers
  bound : ∀ number ∈ numbers, upTo number.value best.value

namespace IsExtreme

variable {upTo : Rat → Rat → Prop} [IsLinearOrder Rat upTo] {numbers others : List ExactNumber}
  {best other : ExactNumber}

/-- There is only one best of some exact numbers. -/
theorem unique (first : IsExtreme upTo numbers best) (second : IsExtreme upTo numbers other) :
    best = other :=
  ExactNumber.value_injective
    (antisymm (second.bound best first.mem) (first.bound other second.mem))

omit [IsLinearOrder Rat upTo] in
/-- The best of some numbers does not depend on their order. -/
theorem perm (extreme : IsExtreme upTo numbers best) (reordered : numbers.Perm others) :
    IsExtreme upTo others best where
  mem := reordered.mem_iff.mp extreme.mem
  bound number member := extreme.bound number (reordered.mem_iff.mpr member)

/-- Of a single number it is the best. -/
theorem single (a : ExactNumber) : IsExtreme upTo [a] a where
  mem := List.mem_singleton_self a
  bound number member := by
    rw [List.mem_singleton.mp member]
    exact refl _

/-- What is the best with the best of some numbers in their place is the best with them. -/
theorem of_replaced {earlier part later : List ExactNumber} {partly : ExactNumber}
    (inPart : IsExtreme upTo part partly)
    (replaced : IsExtreme upTo (earlier ++ partly :: later) best) :
    IsExtreme upTo (earlier ++ part ++ later) best where
  mem := by
    have member := replaced.mem
    simp only [List.mem_append, List.mem_cons] at member ⊢
    rcases member with inEarlier | rfl | inLater
    · exact .inl (.inl inEarlier)
    · exact .inl (.inr inPart.mem)
    · exact .inr inLater
  bound number member := by
    have standIn := replaced.bound partly (by simp)
    simp only [List.mem_append] at member
    rcases member with (inEarlier | inside) | inLater
    · exact replaced.bound number (by simp [inEarlier])
    · exact IsTrans.trans _ _ _ (inPart.bound number inside) standIn
    · exact replaced.bound number (by simp [inLater])

end IsExtreme

/-- An exact number compares as `beyond` another one if it is not up to it. -/
def GoesBeyond (beyond : Ordering) (upTo : Rat → Rat → Prop) : Prop :=
  ∀ a b : ExactNumber, a.number.compare b.number = some beyond ↔ ¬upTo a.value b.value

/-- A number replaces the greatest one so far just if it is not at most that one. -/
theorem goesBeyond_gt : GoesBeyond .gt (· ≤ ·) := by
  intro a b
  rw [a.compare_number, Option.some.injEq, cmp_eq_gt_iff, not_le]

theorem goesBeyond_lt : GoesBeyond .lt (· ≥ ·) := by
  intro a b
  rw [a.compare_number, Option.some.injEq, cmp_eq_lt_iff, not_le]

section Selection

variable {beyond : Ordering} {upTo : Rat → Rat → Prop} [IsLinearOrder Rat upTo]
  (goesBeyond : GoesBeyond beyond upTo)

include goesBeyond

/-- The better of the one that is kept and the next number is kept. -/
theorem exists_isExtreme_pair (kept next : ExactNumber) :
    ∃ better, IsExtreme upTo [kept, next] better ∧
      (if next.number.compare kept.number = some beyond then next.number else kept.number) =
        better.number := by
  by_cases replaced : next.number.compare kept.number = some beyond
  · have below : upTo kept.value next.value :=
      (total_of upTo kept.value next.value).resolve_right ((goesBeyond next kept).mp replaced)
    refine ⟨next, ⟨by simp, ?_⟩, if_pos replaced⟩
    simp only [List.mem_cons, List.not_mem_nil, or_false, forall_eq_or_imp, forall_eq]
    exact ⟨below, refl _⟩
  · have below : upTo next.value kept.value := by
      by_contra above
      exact replaced ((goesBeyond next kept).mpr above)
    refine ⟨kept, ⟨by simp, ?_⟩, if_neg replaced⟩
    simp only [List.mem_cons, List.not_mem_nil, or_false, forall_eq_or_imp, forall_eq]
    exact ⟨refl _, below⟩

/-- What is kept in the end is the best of all numbers. -/
theorem selectNumber_isExtreme (first : ExactNumber) (rest : List ExactNumber) :
    ∃ best, IsExtreme upTo (first :: rest) best ∧
      selectNumber beyond first.number (rest.map (·.number)) = best.number := by
  -- On the numbers still to come, whichever has been kept so far.
  induction rest generalizing first with
  | nil => exact ⟨first, .single first, rfl⟩
  | cons next rest ih =>
    obtain ⟨better, ofTwo, step⟩ := exists_isExtreme_pair goesBeyond first next
    obtain ⟨best, ofRest, selected⟩ := ih better
    have ofAll : IsExtreme upTo ([] ++ [first, next] ++ rest) best := ofTwo.of_replaced ofRest
    refine ⟨best, ofAll, ?_⟩
    rw [← selected, ← step]
    rfl

end Selection

/-- A procedure finds the best of exact numbers, which are up to it in an order of the rational
numbers. It finds the same whatever the order of its arguments, and if it has been asked before for
the best of some that stand together. -/
structure Builtin.FindsExtreme (builtin : Builtin) (upTo : Rat → Rat → Prop) : Prop where
  ok : ∀ numbers, numbers ≠ [] → ∃ best, IsExtreme upTo numbers best ∧
    builtin.apply (numbers.map (·.number.argument)) = .ok (.number best.number)
  reordered : ∀ numbers others : List ExactNumber, numbers.Perm others →
    builtin.apply (numbers.map (·.number.argument)) =
      builtin.apply (others.map (·.number.argument))
  partFirst : ∀ earlier part later : List ExactNumber, part ≠ [] → ∃ partly : ExactNumber,
    builtin.apply (part.map (·.number.argument)) = .ok (.number partly.number) ∧
    builtin.apply ((earlier ++ partly :: later).map (·.number.argument)) =
      builtin.apply ((earlier ++ part ++ later).map (·.number.argument))

section Procedures

variable {builtin : Builtin} {beyond : Ordering} {upTo : Rat → Rat → Prop}
  [IsLinearOrder Rat upTo] {numbers : List ExactNumber}
  (operation : builtin.operation = .selection beyond) (goesBeyond : GoesBeyond beyond upTo)

include operation goesBeyond

/-- Of at least one exact number, the builtin finds the best. -/
theorem Builtin.exists_isExtreme (nonempty : numbers ≠ []) :
    ∃ best, IsExtreme upTo numbers best ∧
      builtin.apply (numbers.map (·.number.argument)) = .ok (.number best.number) := by
  obtain ⟨first, rest, rfl⟩ := List.exists_cons_of_ne_nil nonempty
  obtain ⟨best, extreme, selected⟩ := selectNumber_isExtreme goesBeyond first rest
  have accepted : (Operation.selection beyond).arity.accepts
      ((first :: rest).map (·.number)).length := by
    simp [Operation.arity, Arity.accepts]
  have computed := Operation.apply_numbers accepted
  rw [List.map_cons, Operation.compute, selected, ← List.map_cons, List.map_map] at computed
  refine ⟨best, extreme, ?_⟩
  rw [Builtin.apply, operation]
  exact computed

/-- The result is determined by being the best. -/
theorem Builtin.apply_of_isExtreme {best : ExactNumber} (extreme : IsExtreme upTo numbers best) :
    builtin.apply (numbers.map (·.number.argument)) = .ok (.number best.number) := by
  have nonempty : numbers ≠ [] := List.ne_nil_of_mem extreme.mem
  obtain ⟨found, foundExtreme, applied⟩ := Builtin.exists_isExtreme operation goesBeyond nonempty
  rw [applied, foundExtreme.unique extreme]

/-- The builtin finds the best of its exact arguments, in whatever order and groups they come. -/
theorem Builtin.findsExtreme : builtin.FindsExtreme upTo where
  ok _ nonempty := Builtin.exists_isExtreme operation goesBeyond nonempty
  reordered numbers others perm := by
    cases numbers with
    | nil => rw [perm.nil_eq]
    | cons first rest =>
      obtain ⟨best, extreme, applied⟩ :=
        Builtin.exists_isExtreme operation goesBeyond (List.cons_ne_nil first rest)
      rw [applied, Builtin.apply_of_isExtreme operation goesBeyond (extreme.perm perm)]
  partFirst earlier part later nonempty := by
    obtain ⟨partly, inPart, appliedPart⟩ :=
      Builtin.exists_isExtreme operation goesBeyond nonempty
    have someReplaced : earlier ++ partly :: later ≠ [] := by simp
    obtain ⟨best, replaced, applied⟩ :=
      Builtin.exists_isExtreme operation goesBeyond someReplaced
    refine ⟨partly, appliedPart, ?_⟩
    rw [applied,
      Builtin.apply_of_isExtreme operation goesBeyond (inPart.of_replaced replaced)]

end Procedures

/-- **The greatest and the least of exact numbers.** The procedures find one of the numbers, which
all are less than or equal to, or greater than or equal to. -/
theorem extremes_exact :
    Builtin.max.FindsExtreme (· ≤ ·) ∧ Builtin.min.FindsExtreme (· ≥ ·) :=
  ⟨Builtin.findsExtreme rfl goesBeyond_gt, Builtin.findsExtreme rfl goesBeyond_lt⟩

end SubstLisp
