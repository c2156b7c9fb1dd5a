import Locus.Range.Basic
import Mathlib.Data.List.Forall2
import Mathlib.Order.MinMax
import Mathlib.Order.Std

/-!
# Points and positions as orders

Points are linearly ordered and positions are preordered: positions of one
point lie below each other. Ties between intervals and between ranges are read
off their ends.
-/

namespace Locus

instance : LinearOrder Point := .ofStd Point

instance : Preorder Position := .ofStd Position

namespace Point

/-- The name of the text decides before the offset does. -/
theorem file_isLE_of_le
    {first second : Point}
    (ordered : first ≤ second) :
    (compareOn file first second).isLE := by
  change ((compareOn file first second).then
    (compareOn offset first second)).isLE at ordered
  exact Ordering.isLE_left_of_isLE_then ordered

/-- Between two points of one text there are only points of that text. -/
theorem file_eq_of_le_of_le
    {first middle last : Point}
    (sameFile : first.file = last.file)
    (front : first ≤ middle)
    (back : middle ≤ last) :
    middle.file = first.file := by
  have frontFile := file_isLE_of_le front
  have backFile := file_isLE_of_le back
  unfold compareOn at frontFile backFile
  rw [← sameFile] at backFile
  exact Std.LawfulEqOrd.eq_of_compare
    (Std.OrientedCmp.isLE_antisymm backFile frontFile)

/-- Points of one text are ordered by offset. -/
theorem le_iff_of_file_eq
    {first second : Point}
    (sameFile : first.file = second.file) :
    first ≤ second ↔ first.offset ≤ second.offset := by
  rw [← not_lt, lt_iff, sameFile]
  simp

end Point

namespace Position

theorem equiv_iff_le_and_le {first second : Position} :
    first ≈ second ↔ first ≤ second ∧ second ≤ first := by
  rw [equiv_iff, le_iff, le_iff, le_antisymm_iff]

theorem not_lt_of_equiv
    {first second : Position}
    (tied : first ≈ second) :
    ¬first < second :=
  Std.not_lt.mpr (equiv_iff_le_and_le.mp tied).2

@[simp] theorem toPoint_earlier (first second : Position) :
    (first.earlier second).toPoint = min first.toPoint second.toPoint := by
  unfold earlier
  split
  case isTrue less =>
    exact (min_eq_right (le_of_lt (lt_iff.mp less))).symm
  case isFalse notLess =>
    rw [lt_iff, not_lt] at notLess
    exact (min_eq_left notLess).symm

@[simp] theorem toPoint_later (first second : Position) :
    (first.later second).toPoint = max first.toPoint second.toPoint := by
  unfold later
  split
  case isTrue less =>
    exact (max_eq_left (le_of_lt (lt_iff.mp less))).symm
  case isFalse notLess =>
    rw [lt_iff, not_lt] at notLess
    exact (max_eq_right notLess).symm

theorem earlier_eq_or (first second : Position) :
    first.earlier second = first ∨ first.earlier second = second := by
  unfold earlier
  split
  · exact Or.inr rfl
  · exact Or.inl rfl

theorem later_eq_or (first second : Position) :
    first.later second = first ∨ first.later second = second := by
  unfold later
  split
  · exact Or.inl rfl
  · exact Or.inr rfl

/-- A tie is decided in favour of the first position. -/
theorem earlier_eq_left_of_equiv
    {first second : Position}
    (tied : first.earlier second ≈ first) :
    first.earlier second = first := by
  rw [equiv_iff_le_and_le] at tied
  exact earlier_of_le (le_trans tied.2 (earlier_le_right first second))

/-- A tie is decided in favour of the second position. -/
theorem later_eq_right_of_equiv
    {first second : Position}
    (tied : first.later second ≈ second) :
    first.later second = second := by
  rw [equiv_iff_le_and_le] at tied
  exact later_of_le (le_trans (le_later_left first second) tied.1)

/-- Of three positions the first of the least ones is found in two steps,
whichever two are compared first. -/
theorem earlier_assoc (first second third : Position) :
    (first.earlier second).earlier third =
      first.earlier (second.earlier third) := by
  unfold earlier
  split <;> split <;> grind

theorem later_assoc (first second third : Position) :
    (first.later second).later third =
      first.later (second.later third) := by
  unfold later
  split <;> split <;> grind

/-- Without a tie the order of the two positions does not matter. -/
theorem earlier_comm_of_lt
    {first second : Position}
    (less : first < second) :
    first.earlier second = second.earlier first := by
  rw [earlier_of_le (le_of_lt less), earlier, if_pos less]

theorem later_comm_of_lt
    {first second : Position}
    (less : first < second) :
    first.later second = second.later first := by
  rw [later_of_le (le_of_lt less), later, if_pos less]

end Position

/-- Lists are tied when they are equally long and their members are tied one
by one. -/
theorem tied_list_iff {α : Type} [Ord α] {firsts seconds : List α} :
    Tied firsts seconds ↔ List.Forall₂ Tied firsts seconds := by
  induction firsts generalizing seconds with
  | nil => cases seconds <;> simp [Tied]
  | cons first firstRest inductionHypothesis =>
      cases seconds with
      | nil => simp [Tied]
      | cons second secondRest =>
          rw [List.forall₂_cons, ← inductionHypothesis]
          unfold Tied
          rw [List.compare_cons_cons, Ordering.then_eq_eq]

section Sorting

variable {α : Type} [Ord α] [Std.TransOrd α]

/-- A first value is sorted in between the values that precede it and those it
precedes or is tied with; these two parts make up the rest. -/
theorem ascending_cons (value : α) (rest : List α) :
    let before := (ascending rest).filter fun other =>
      !(compare value other).isLE
    let after := (ascending rest).filter fun other =>
      (compare value other).isLE
    ascending (value :: rest) = before ++ value :: after ∧
      ascending rest = before ++ after := by
  obtain ⟨before, after, sorted, remaining, precede⟩ :=
    List.mergeSort_cons (fun _ _ _ => Std.TransCmp.isLE_trans) isLE_total
      value rest
  have inOrder := pairwise_ascending (value :: rest)
  rw [ascending, sorted] at inOrder
  have follow : ∀ other ∈ after, (compare value other).isLE := fun _ =>
    List.rel_of_pairwise_cons (List.pairwise_append.mp inOrder).2.1
  have beforeEq : (ascending rest).filter
      (fun other => !(compare value other).isLE) = before := by
    rw [ascending, remaining, List.filter_append,
      List.filter_eq_self.mpr precede, List.filter_eq_nil_iff.mpr, List.append_nil]
    intro other member
    simp [follow other member]
  have afterEq : (ascending rest).filter
      (fun other => (compare value other).isLE) = after := by
    rw [ascending, remaining, List.filter_append,
      List.filter_eq_self.mpr follow, List.filter_eq_nil_iff.mpr, List.nil_append]
    intro other member
    simpa using precede other member
  rw [beforeEq, afterEq]
  exact ⟨sorted, remaining⟩

/-- Sorting keeps the order of tied values, so it commutes with filters. -/
theorem filter_ascending (keep : α → Bool) (values : List α) :
    (ascending values).filter keep = ascending (values.filter keep) := by
  induction values with
  | nil => simp [ascending]
  | cons value rest inductionHypothesis =>
      obtain ⟨sorted, remaining⟩ := ascending_cons value rest
      cases kept : keep value with
      | false =>
          have dropped : ¬keep value := by simp [kept]
          rw [sorted, List.filter_append, List.filter_cons_of_neg dropped,
            List.filter_cons_of_neg dropped, ← List.filter_append, ← remaining,
            inductionHypothesis]
      | true =>
          obtain ⟨keptSorted, -⟩ := ascending_cons value (rest.filter keep)
          rw [sorted, List.filter_append, List.filter_cons_of_pos kept,
            List.filter_cons_of_pos kept, keptSorted, ← inductionHypothesis,
            List.filter_comm, List.filter_comm keep]

end Sorting

theorem Range.equiv_iff {first second : Range} :
    first ≈ second ↔
      List.Forall₂ (· ≈ ·) first.intervals second.intervals :=
  tied_list_iff

end Locus
