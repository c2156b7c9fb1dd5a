import Locus.Proofs.Sorting.Merge
import Locus.Proofs.Sorting.Run
import Locus.Sorting.Adaptive

/-!
# Sorting finds the ascending arrangement

Where the comparison tells an order, sorting has a result: the ascending list, in
which tied values keep their order. Which runs are merged, when, and from which
end does not matter for it. Throughout, the waiting runs rise, and one after the
other they are a stable rearrangement of the values they were made of.
-/

namespace Locus

namespace Sorting

variable {α ε β : Type}

/-- The values of waiting runs, of which the last comes first. -/
def Waiting.join (runs : List (Waiting α)) : List α :=
  (runs.reverse.map Waiting.items).flatten

@[simp] theorem Waiting.join_nil :
    Waiting.join ([] : List (Waiting α)) = [] := rfl

@[simp] theorem Waiting.join_cons
    (last : Waiting α)
    (rest : List (Waiting α)) :
    Waiting.join (last :: rest) = Waiting.join rest ++ last.items := by
  simp [join]

/-- The run of what stands for the values. -/
def Waiting.map (wrap : β → α) (run : Waiting β) : Waiting α where
  start := run.start
  items := run.items.map wrap
  depth := run.depth

/-- Every waiting run rises. -/
def AllRise (order : β → β → Ordering) (waiting : List (Waiting β)) : Prop :=
  ∀ run ∈ waiting, Rising order run.items

section Runs

variable {order : β → β → Ordering} [Std.TransCmp order]
variable {precedes : α → α → Except ε Bool} {wrap : β → α}
variable (tells : Tells order wrap precedes)

include tells

theorem exists_mergeDeeper
    {last : Waiting β}
    {rest : List (Waiting β)}
    (lastRises : Rising order last.items)
    (restRise : AllRise order rest)
    (depth patience : Nat) :
    ∃ (waiting : List (Waiting β)) (learnt : Nat),
      mergeDeeper precedes depth patience (last.map wrap)
          (rest.map (Waiting.map wrap)) =
        .ok (waiting.map (Waiting.map wrap), learnt) ∧
      AllRise order waiting ∧
        StablePerm order (Waiting.join waiting)
          (Waiting.join rest ++ last.items) := by
  induction rest generalizing last patience with
  | nil =>
      refine ⟨[⟨last.start, last.items, depth⟩], patience, rfl, ?_, ?_⟩
      · exact List.forall_mem_singleton.mpr lastRises
      · rw [Waiting.join_cons]
        exact .refl order _
  | cons before rest restHypothesis =>
      obtain ⟨beforeRises, othersRise⟩ := List.forall_mem_cons.mp restRise
      rw [List.map_cons, mergeDeeper]
      by_cases deeper : depth < before.depth
      · obtain ⟨items, learnt, step, rising, same⟩ :=
          exists_merge tells beforeRises lastRises patience
        let merged : Waiting β := ⟨before.start, items, before.depth⟩
        have mergedRises : Rising order merged.items := rising
        obtain ⟨waiting, final, steps, rise, allSame⟩ :=
          restHypothesis mergedRises othersRise learnt
        refine ⟨waiting, final, ?_, rise, allSame.trans ?_⟩
        · simp only [Waiting.map, if_pos deeper, step, bind, Except.bind]
          exact steps
        · rw [Waiting.join_cons, List.append_assoc]
          exact same.append_left _
      · refine ⟨⟨last.start, last.items, depth⟩ :: before :: rest, patience,
          if_neg deeper, List.forall_mem_cons.mpr ⟨lastRises, restRise⟩, ?_⟩
        rw [Waiting.join_cons]
        exact .refl order _

theorem exists_await
    {items : List β}
    {waiting : List (Waiting β)}
    (itemsRise : Rising order items)
    (rise : AllRise order waiting)
    (total start patience : Nat) :
    ∃ (longer : List (Waiting β)) (learnt : Nat),
      await precedes total start patience (items.map wrap)
          (waiting.map (Waiting.map wrap)) =
        .ok (longer.map (Waiting.map wrap), learnt) ∧
      AllRise order longer ∧
        StablePerm order (Waiting.join longer)
          (Waiting.join waiting ++ items) := by
  cases waiting with
  | nil =>
      refine ⟨[⟨start, items, 0⟩], patience, rfl, ?_, ?_⟩
      · exact List.forall_mem_singleton.mpr itemsRise
      · rw [Waiting.join_cons]
        exact .refl order _
  | cons last rest =>
      obtain ⟨lastRises, restRise⟩ := List.forall_mem_cons.mp rise
      obtain ⟨earlier, learnt, step, earlierRise, same⟩ :=
        exists_mergeDeeper tells lastRises restRise
          (borderDepth total last.start last.items.length items.length) patience
      refine ⟨⟨start, items, 0⟩ :: earlier, learnt, ?_, ?_, ?_⟩
      · rw [List.map_cons, await]
        simp only [Waiting.map, List.length_map] at step ⊢
        simp only [step, bind, Except.bind]
        rfl
      · exact List.forall_mem_cons.mpr ⟨itemsRise, earlierRise⟩
      · rw [Waiting.join_cons, Waiting.join_cons]
        exact same.append_right items

theorem exists_mergeWaiting
    {waiting : List (Waiting β)}
    (rise : AllRise order waiting)
    (patience : Nat) :
    ∃ sorted : List β,
      mergeWaiting precedes patience (waiting.map (Waiting.map wrap)) =
        .ok (sorted.map wrap) ∧
      Arranges order sorted (Waiting.join waiting) := by
  induction patience, waiting using mergeWaiting.induct with
  | case1 patience =>
      refine ⟨[], ?_, .nil, .refl order []⟩
      rw [List.map_nil, mergeWaiting, List.map_nil]
  | case2 patience last =>
      refine ⟨last.items, ?_, rise last List.mem_cons_self, ?_⟩
      · rw [List.map_singleton, mergeWaiting]
        rfl
      · rw [Waiting.join_cons]
        exact .refl order _
  | case3 patience last second =>
      obtain ⟨lastRises, secondRise⟩ := List.forall_mem_cons.mp rise
      obtain ⟨items, learnt, step, rising, same⟩ :=
        exists_merge tells (secondRise second List.mem_cons_self) lastRises
          patience
      refine ⟨items, ?_, rising, ?_⟩
      · simp only [List.map_cons, List.map_nil, mergeWaiting, Waiting.map, step]
        rfl
      · simpa using same
  | case4 patience last second third rest shorter hypothesis =>
      simp only [AllRise, List.forall_mem_cons] at rise hypothesis
      obtain ⟨lastRises, secondRises, thirdRises, restRise⟩ := rise
      obtain ⟨items, learnt, step, rising, same⟩ :=
        exists_merge tells thirdRises secondRises patience
      obtain ⟨sorted, steps, arranges⟩ :=
        hypothesis items learnt ⟨lastRises, rising, restRise⟩
      refine ⟨sorted, ?_, arranges.trans ?_⟩
      · simp only [List.map_cons, mergeWaiting, Waiting.map, List.length_map,
          if_pos shorter, step, bind, Except.bind] at steps ⊢
        exact steps
      · simp only [Waiting.join_cons, List.append_assoc]
        refine StablePerm.append_left _ ?_
        rw [← List.append_assoc]
        exact same.append_right _
  | case5 patience last second third rest longer hypothesis =>
      simp only [AllRise, List.forall_mem_cons] at rise hypothesis
      obtain ⟨lastRises, secondRises, thirdRises, restRise⟩ := rise
      obtain ⟨items, learnt, step, rising, same⟩ :=
        exists_merge tells secondRises lastRises patience
      obtain ⟨sorted, steps, arranges⟩ :=
        hypothesis items learnt ⟨rising, thirdRises, restRise⟩
      refine ⟨sorted, ?_, arranges.trans ?_⟩
      · simp only [List.map_cons, mergeWaiting, Waiting.map, List.length_map,
          if_neg longer, step, bind, Except.bind] at steps ⊢
        exact steps
      · simp only [Waiting.join_cons, List.append_assoc]
        exact (same.append_left _).append_left _

/-- Without further values the waiting runs are merged. -/
theorem exists_sortRest_nil
    {waiting : List (Waiting β)}
    (rise : AllRise order waiting)
    (total turns start patience : Nat) :
    ∃ sorted : List β,
      sortRest precedes total turns start patience
          (waiting.map (Waiting.map wrap)) [] = .ok (sorted.map wrap) ∧
      Arranges order sorted (Waiting.join waiting) := by
  obtain ⟨sorted, step, arranges⟩ := exists_mergeWaiting tells rise patience
  refine ⟨sorted, ?_, arranges⟩
  have merging : sortRest precedes total turns start patience
      (waiting.map (Waiting.map wrap)) [] = (do
        let sorted ← mergeWaiting precedes patience
          (waiting.map (Waiting.map wrap))
        return sorted ++ []) := by
    cases turns <;> rfl
  rw [merging, step]
  exact congrArg Except.ok (List.append_nil _)

/-- Every turn takes a run, and then what waits and what is left still make up
all values. -/
theorem exists_sortRest
    {total turns : Nat}
    {waiting : List (Waiting β)}
    {values : List β}
    (rise : AllRise order waiting)
    (enough : values.length ≤ turns)
    (start patience : Nat) :
    ∃ sorted : List β,
      sortRest precedes total turns start patience
          (waiting.map (Waiting.map wrap)) (values.map wrap) =
        .ok (sorted.map wrap) ∧
      Arranges order sorted (Waiting.join waiting ++ values) := by
  induction turns generalizing start patience waiting values with
  | zero =>
      obtain rfl : values = [] :=
        List.eq_nil_of_length_eq_zero (Nat.le_zero.mp enough)
      rw [List.append_nil]
      exact exists_sortRest_nil tells rise total 0 start patience
  | succ turns turnsHypothesis =>
      cases values with
      | nil =>
          rw [List.append_nil]
          exact exists_sortRest_nil tells rise total (turns + 1) start patience
      | cons value rest =>
          obtain ⟨run, others, front, rises, same, notEmpty⟩ :=
            exists_frontRun tells (leastRun total) (value :: rest)
          obtain ⟨longer, learnt, step, longerRise, longerSame⟩ :=
            exists_await tells rises rise total start patience
          have fewer : others.length ≤ turns := by
            have whole := same.perm.length_eq
            have filled := List.length_pos_iff.mpr (notEmpty nofun)
            rw [List.length_append] at whole
            omega
          obtain ⟨sorted, steps, arranges⟩ :=
            turnsHypothesis longerRise fewer (start + run.length) learnt
          refine ⟨sorted, ?_, arranges.trans ?_⟩
          · rw [List.map_cons] at front ⊢
            rw [sortRest]
            simp only [front, step, List.length_map, bind, Except.bind]
            exact steps
          · refine (longerSame.append_right others).trans ?_
            rw [List.append_assoc]
            exact same.append_left _

end Runs

section Ascending

variable [Ord β] [Std.TransOrd β] {precedes : α → α → Except ε Bool}
variable {wrap : β → α}

/-- Sorting finds the ascending list, where the comparison tells the order. -/
theorem sort_eq_ascending
    (tells : Tells compare wrap precedes)
    (values : List β) :
    sort precedes (values.map wrap) = .ok ((ascending values).map wrap) := by
  have none : AllRise compare ([] : List (Waiting β)) := fun _ => nofun
  obtain ⟨sorted, step, arranges⟩ :=
    exists_sortRest tells none (le_refl values.length) 0 payoff
  rw [Waiting.join_nil, List.nil_append] at arranges
  rw [sort, List.length_map, ← arranges.eq_ascending]
  exact step

end Ascending

end Sorting

end Locus
