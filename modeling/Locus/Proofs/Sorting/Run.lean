import Locus.Proofs.Sorting.Search
import Locus.Sorting.Run

/-!
# Runs in order

Where the comparison tells an order, a run at the front of a list rises: a rising
one is found so, and one that falls has no ties and is reversed. A value is
placed behind all values that are not greater, so a run stays rising, and the
value comes to stand behind all values that are tied with it.
-/

namespace Locus

namespace Sorting

variable {α ε β : Type} {order : β → β → Ordering} [Std.TransCmp order]
variable {precedes : α → α → Except ε Bool} {wrap : β → α}

/-- Falling goes on from step to step, and so does not falling. -/
theorem isLT_eq_trans
    {falling : Bool}
    {first second third : β}
    (front : (order second first).isLT = falling)
    (back : (order third second).isLT = falling) :
    (order third first).isLT = falling := by
  cases falling with
  | true =>
      rw [Ordering.isLT_iff_eq_lt] at *
      exact Std.TransCmp.lt_trans back front
  | false =>
      rw [isLT_eq_false_iff] at *
      exact Std.TransCmp.isLE_trans front back

variable (tells : Tells order wrap precedes)

include tells

theorem exists_place
    {run : List β}
    (rising : Rising order run)
    (value : β) :
    ∃ placed, place precedes (run.map wrap) (wrap value) =
        .ok (placed.map wrap) ∧ Arranges order placed (run ++ [value]) := by
  obtain ⟨front, back, rfl, fronts, backs, found⟩ :=
    exists_bisect_of_rising (tells value) rising
  obtain ⟨frontRising, backRising, apart⟩ := List.pairwise_append.mp rising
  refine ⟨front ++ value :: back, ?_, ?_, ?_⟩
  · rw [place, found]
    simp [bind, Except.bind, pure, Except.pure]
  · refine List.pairwise_append.mpr ⟨frontRising, ?_, ?_⟩
    · refine List.pairwise_cons.mpr ⟨?_, backRising⟩
      intro other member
      rw [backs other member]
      rfl
    · intro other member
      refine List.forall_mem_cons.mpr ⟨fronts other member, ?_⟩
      exact apart other member
  · rw [List.append_assoc]
    have exchanged : StablePerm order ([value] ++ back) (back ++ [value]) := by
      apply StablePerm.append_comm
      intro first firstMember second secondMember
      rw [List.mem_singleton.mp firstMember]
      exact backs second secondMember
    exact exchanged.append_left front

/-- Placing values one after the other sorts them into the run. -/
theorem exists_placeAll
    {run : List β}
    (rising : Rising order run)
    (others : List β) :
    ∃ placed, (others.map wrap).foldlM (place precedes) (run.map wrap) =
        .ok (placed.map wrap) ∧ Arranges order placed (run ++ others) := by
  induction others generalizing run with
  | nil =>
      refine ⟨run, rfl, rising, ?_⟩
      rw [List.append_nil]
      exact .refl order run
  | cons value rest inductionHypothesis =>
      obtain ⟨next, step, nextArranges⟩ := exists_place tells rising value
      obtain ⟨placed, steps, arranges⟩ := inductionHypothesis nextArranges.rises
      refine ⟨placed, ?_, arranges.trans ?_⟩
      · rw [List.map_cons, List.foldlM_cons, step]
        exact steps
      · rw [List.append_cons]
        exact nextArranges.same.append_right rest

/-- The run that continues is a chain of the given direction. -/
theorem exists_continueRun (falling : Bool) (last : β) (values : List β) :
    ∃ run others, continueRun precedes falling (wrap last) (values.map wrap) =
        .ok (run.map wrap, others.map wrap) ∧
      run ++ others = values ∧
        (last :: run).Pairwise fun first second =>
          (order second first).isLT = falling := by
  induction values generalizing last with
  | nil => exact ⟨[], [], rfl, rfl, List.pairwise_singleton _ _⟩
  | cons value rest inductionHypothesis =>
      by_cases continues : (order value last).isLT = falling
      · obtain ⟨run, others, step, whole, chain⟩ := inductionHypothesis value
        refine ⟨value :: run, others, ?_, congrArg (value :: ·) whole, ?_⟩
        · rw [List.map_cons, continueRun, tells]
          simp only [bind, Except.bind, if_pos continues, step]
          rfl
        · refine List.pairwise_cons.mpr ⟨?_, chain⟩
          refine List.forall_mem_cons.mpr ⟨continues, ?_⟩
          intro other member
          exact isLT_eq_trans continues (List.rel_of_pairwise_cons chain member)
      · refine ⟨[], value :: rest, ?_, rfl, List.pairwise_singleton _ _⟩
        rw [List.map_cons, continueRun, tells]
        simp only [bind, Except.bind, if_neg continues]
        rfl

/-- The leading run rises when it is split off, and tied values keep their
order. -/
theorem exists_leadingRun (values : List β) :
    ∃ run others, leadingRun precedes (values.map wrap) =
        .ok (run.map wrap, others.map wrap) ∧
      Rising order run ∧ StablePerm order (run ++ others) values ∧
        (values ≠ [] → run ≠ []) := by
  match values with
  | [] => exact ⟨[], [], rfl, .nil, .refl order [], id⟩
  | [single] =>
      exact ⟨[single], [], rfl, List.pairwise_singleton _ _,
        .refl order [single], by simp⟩
  | first :: second :: rest =>
      obtain ⟨falling, direction⟩ :
          ∃ falling, (order second first).isLT = falling := ⟨_, rfl⟩
      obtain ⟨run, others, step, rfl, chain⟩ :=
        exists_continueRun tells falling second rest
      have further : (first :: second :: run).Pairwise fun front back =>
          (order back front).isLT = falling := by
        refine List.pairwise_cons.mpr ⟨?_, chain⟩
        refine List.forall_mem_cons.mpr ⟨direction, ?_⟩
        intro other member
        exact isLT_eq_trans direction (List.rel_of_pairwise_cons chain member)
      rw [List.map_cons, List.map_cons, leadingRun, tells, direction]
      simp only [bind, Except.bind, step]
      cases falling with
      | true =>
          simp only [Ordering.isLT_iff_eq_lt] at further
          refine ⟨(first :: second :: run).reverse, others, ?_, ?_, ?_, by simp⟩
          · rw [List.map_reverse]
            rfl
          · refine List.pairwise_reverse.mpr (further.imp ?_)
            intro front back less
            rw [less]
            rfl
          · exact (StablePerm.reverse_of_falling further).append_right others
      | false =>
          simp only [isLT_eq_false_iff] at further
          exact ⟨first :: second :: run, others, rfl, further,
            .refl order _, by simp⟩

/-- The front run rises, and with what follows it makes up all values. -/
theorem exists_frontRun (least : Nat) (values : List β) :
    ∃ run others, frontRun precedes least (values.map wrap) =
        .ok (run.map wrap, others.map wrap) ∧
      Rising order run ∧ StablePerm order (run ++ others) values ∧
        (values ≠ [] → run ≠ []) := by
  obtain ⟨leading, others, split, rising, same, notEmpty⟩ :=
    exists_leadingRun tells values
  obtain ⟨run, steps, arranges⟩ :=
    exists_placeAll tells rising (others.take (least - leading.length))
  refine ⟨run, others.drop (least - leading.length), ?_, arranges.rises, ?_, ?_⟩
  · rw [frontRun, split]
    simp only [bind, Except.bind, List.length_map, ← List.map_take, steps,
      ← List.map_drop]
    rfl
  · refine (arranges.same.append_right _).trans ?_
    rw [List.append_assoc, List.take_append_drop]
    exact same
  · intro filled empty
    rw [empty] at arranges
    exact notEmpty filled
      (List.append_eq_nil_iff.mp arranges.same.perm.nil_eq.symm).1

end Sorting

end Locus
