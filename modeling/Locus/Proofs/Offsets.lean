import Locus.Proofs.Range.Offsets
import Locus.Sample
import Mathlib.Data.Set.Finite.Lemmas
import Mathlib.Order.Bounds.Basic
import Mathlib.Order.Closure

/-!
# Contiguous sets of offsets

The closure of a set of offsets consists of all offsets between two members. It
is the least contiguous set around them, so closing is a closure operator whose
closed sets are the contiguous ones. This alone makes it monotone, idempotent
and compatible with unions. The closed offsets of a range run from its least
start to its greatest stop, in whatever order its intervals stand.
-/

namespace Locus

namespace OffsetSet

variable {offsets left right : OffsetSet}

theorem min?_toList_eq_some_iff {first : Int} :
    offsets.toList.min? = some first ↔
      IsLeast {offset | offset ∈ offsets} first :=
  List.min?_eq_some_iff

theorem max?_toList_eq_some_iff {last : Int} :
    offsets.toList.max? = some last ↔
      IsGreatest {offset | offset ∈ offsets} last :=
  List.max?_eq_some_iff

/-- A set runs from its least to its greatest member once it is closed. -/
theorem closure_eq_between
    {first last : Int}
    (least : IsLeast {offset | offset ∈ offsets} first)
    (greatest : IsGreatest {offset | offset ∈ offsets} last) :
    offsets.closure = between first last := by
  rw [closure, min?_toList_eq_some_iff.mpr least,
    max?_toList_eq_some_iff.mpr greatest]

/-- The closure adds what lies between two members. -/
theorem mem_closure {offset : Int} :
    offset ∈ offsets.closure ↔
      ∃ first ∈ offsets, ∃ last ∈ offsets,
        first ≤ offset ∧ offset ≤ last := by
  unfold closure
  split
  case h_1 least greatest minimum maximum =>
    have isLeast := min?_toList_eq_some_iff.mp minimum
    have isGreatest := max?_toList_eq_some_iff.mp maximum
    rw [mem_between]
    constructor
    · rintro ⟨afterLeast, beforeGreatest⟩
      exact ⟨least, isLeast.1, greatest, isGreatest.1, afterLeast,
        beforeGreatest⟩
    · rintro ⟨first, firstMember, last, lastMember, afterFirst, beforeLast⟩
      exact ⟨le_trans (isLeast.2 firstMember) afterFirst,
        le_trans beforeLast (isGreatest.2 lastMember)⟩
  case h_2 unbounded =>
    -- Only the empty set has no least and no greatest member.
    refine iff_of_false (not_mem_empty offset) ?_
    rintro ⟨first, member, -⟩
    rw [← mem_toList] at member
    obtain ⟨least, minimum⟩ :=
      Option.isSome_iff_exists.mp (List.isSome_min?_of_mem member)
    obtain ⟨greatest, maximum⟩ :=
      Option.isSome_iff_exists.mp (List.isSome_max?_of_mem member)
    exact unbounded least greatest minimum maximum

theorem subset_closure (offsets : OffsetSet) : offsets ⊆ offsets.closure := by
  intro offset member
  exact mem_closure.mpr
    ⟨offset, member, offset, member, le_refl _, le_refl _⟩

theorem eq_empty_iff : offsets = ∅ ↔ ∀ offset, offset ∉ offsets := by
  constructor
  · rintro rfl
    exact not_mem_empty
  · intro none
    ext offset
    exact iff_of_false (none offset) (not_mem_empty offset)

theorem closure_eq_empty_iff : offsets.closure = ∅ ↔ offsets = ∅ := by
  constructor
  · intro closed
    rw [eq_empty_iff] at closed ⊢
    intro offset member
    exact closed offset (subset_closure offsets offset member)
  · rintro rfl
    rfl

/-- A set of integers, finite or not, that has all that lies between two of its
members. -/
def Contiguous (region : Set Int) : Prop :=
  ∀ first ∈ region, ∀ last ∈ region, ∀ offset,
    first ≤ offset → offset ≤ last → offset ∈ region

theorem contiguous_closure (offsets : OffsetSet) :
    Contiguous {offset | offset ∈ offsets.closure} := by
  intro front frontPresent back backPresent offset afterFront beforeBack
  obtain ⟨first, firstMember, -, -, afterFirst, -⟩ :=
    mem_closure.mp frontPresent
  obtain ⟨-, -, last, lastMember, -, beforeLast⟩ :=
    mem_closure.mp backPresent
  exact mem_closure.mpr ⟨first, firstMember, last, lastMember,
    le_trans afterFirst afterFront, le_trans beforeBack beforeLast⟩

/-- A contiguous set that contains a set of offsets contains its closure. -/
theorem mem_of_mem_closure
    {region : Set Int}
    (contiguous : Contiguous region)
    (contains : ∀ offset ∈ offsets, offset ∈ region) :
    ∀ offset ∈ offsets.closure, offset ∈ region := by
  intro offset present
  obtain ⟨first, firstMember, last, lastMember, afterFirst, beforeLast⟩ :=
    mem_closure.mp present
  exact contiguous first (contains first firstMember) last
    (contains last lastMember) offset afterFirst beforeLast

instance : SemilatticeSup OffsetSet where
  le := (· ⊆ ·)
  le_refl _ _ member := member
  le_trans _ _ _ front back offset member := back offset (front offset member)
  le_antisymm _ _ front back := ext fun offset => ⟨front offset, back offset⟩
  sup := (· ∪ ·)
  le_sup_left _ _ _ member := mem_union.mpr (Or.inl member)
  le_sup_right _ _ _ member := mem_union.mpr (Or.inr member)
  sup_le _ _ _ front back offset member :=
    (mem_union.mp member).elim (front offset) (back offset)

/-- Closure as an operator. The closed sets are the contiguous ones. -/
def closing : ClosureOperator OffsetSet :=
  .ofPred closure (fun offsets => Contiguous {offset | offset ∈ offsets})
    subset_closure contiguous_closure
    fun _ _ included contiguous => mem_of_mem_closure contiguous included

theorem closure_mono (included : left ⊆ right) :
    left.closure ⊆ right.closure :=
  closing.monotone included

theorem closure_closure (offsets : OffsetSet) :
    offsets.closure.closure = offsets.closure :=
  closing.idempotent offsets

theorem closure_union (left right : OffsetSet) :
    (left ∪ right).closure = (left.closure ∪ right.closure).closure :=
  (closing.closure_sup_closure left right).symm

end OffsetSet

namespace Range

variable {range : Range}

/-- One interval of a range that is not empty starts first, and one stops last,
as far as offsets go. -/
theorem exists_extremes (nonempty : range ≠ ∅) :
    ∃ first ∈ range.intervals, ∃ last ∈ range.intervals,
      ∀ interval ∈ range.intervals,
        first.start.offset ≤ interval.start.offset ∧
          interval.stop.offset ≤ last.stop.offset := by
  have finite : {interval | interval ∈ range.intervals}.Finite :=
    range.intervals.finite_toSet
  have inhabited : {interval | interval ∈ range.intervals}.Nonempty := by
    apply List.exists_mem_of_ne_nil
    intro empty
    exact nonempty (congrArg mk empty)
  obtain ⟨first, firstMember, startsFirst⟩ :=
    Set.exists_min_image _ (fun interval => interval.start.offset) finite
      inhabited
  obtain ⟨last, lastMember, stopsLast⟩ :=
    Set.exists_max_image _ (fun interval => interval.stop.offset) finite
      inhabited
  refine ⟨first, firstMember, last, lastMember, ?_⟩
  intro interval member
  exact ⟨startsFirst interval member, stopsLast interval member⟩

section Forward

variable (forward : ∀ interval ∈ range.intervals,
  interval.start.offset ≤ interval.stop.offset)

include forward

theorem start_mem_offsets
    {interval : Interval}
    (member : interval ∈ range.intervals) :
    interval.start.offset ∈ range.offsets :=
  mem_offsets.mpr ⟨interval, member,
    Interval.mem_offsets.mpr ⟨le_refl _, forward interval member⟩⟩

theorem stop_mem_offsets
    {interval : Interval}
    (member : interval ∈ range.intervals) :
    interval.stop.offset ∈ range.offsets :=
  mem_offsets.mpr ⟨interval, member,
    Interval.mem_offsets.mpr ⟨forward interval member, le_refl _⟩⟩

theorem offsets_eq_empty_iff : range.offsets = ∅ ↔ range = ∅ := by
  constructor
  · intro empty
    by_contra nonempty
    obtain ⟨first, member, -⟩ := exists_extremes nonempty
    rw [OffsetSet.eq_empty_iff] at empty
    exact empty first.start.offset (start_mem_offsets forward member)
  · rintro rfl
    rfl

/-- The closed offsets run from the least start to the greatest stop. -/
theorem closure_offsets_eq_between
    {first last : Interval}
    (firstMember : first ∈ range.intervals)
    (lastMember : last ∈ range.intervals)
    (extreme : ∀ interval ∈ range.intervals,
      first.start.offset ≤ interval.start.offset ∧
        interval.stop.offset ≤ last.stop.offset) :
    range.offsets.closure =
      .between first.start.offset last.stop.offset := by
  apply OffsetSet.closure_eq_between
  · refine ⟨start_mem_offsets forward firstMember, ?_⟩
    intro offset present
    obtain ⟨interval, member, inside⟩ := mem_offsets.mp present
    exact le_trans (extreme interval member).1
      (Interval.mem_offsets.mp inside).1
  · refine ⟨stop_mem_offsets forward lastMember, ?_⟩
    intro offset present
    obtain ⟨interval, member, inside⟩ := mem_offsets.mp present
    exact le_trans (Interval.mem_offsets.mp inside).2
      (extreme interval member).2

end Forward

end Range

namespace OffsetSet

open Sample (positionAt)

/-- The closure is the least contiguous set around the given one. Every
contiguous set of integers that contains the one contains the other. Closing is
monotone and idempotent, and the parts of a union may be closed beforehand. For
a range whose intervals do not stop before they start, canonical or not, the
closed offsets are empty just when the range is, and otherwise run from the
least start to the greatest stop. -/
theorem closure_is_least_contiguous :
    (∀ offsets : OffsetSet,
      offsets ⊆ offsets.closure ∧
      Contiguous {offset | offset ∈ offsets.closure} ∧
      (∀ region : Set Int, Contiguous region →
        (∀ offset ∈ offsets, offset ∈ region) →
          ∀ offset ∈ offsets.closure, offset ∈ region) ∧
      offsets.closure.closure = offsets.closure) ∧
    (∀ left right : OffsetSet,
      (left ⊆ right → left.closure ⊆ right.closure) ∧
      (left ∪ right).closure = (left.closure ∪ right.closure).closure) ∧
    (∀ range : Range,
      (∀ interval ∈ range.intervals,
        interval.start.offset ≤ interval.stop.offset) →
        (range.offsets.closure = ∅ ↔ range = ∅) ∧
        (range ≠ ∅ →
          ∃ first ∈ range.intervals, ∃ last ∈ range.intervals,
            (∀ interval ∈ range.intervals,
              first.start.offset ≤ interval.start.offset ∧
                interval.stop.offset ≤ last.stop.offset) ∧
            range.offsets.closure =
              .between first.start.offset last.stop.offset)) := by
  refine ⟨?_, ?_, ?_⟩
  · intro offsets
    exact ⟨subset_closure offsets, contiguous_closure offsets,
      fun _ => mem_of_mem_closure, closure_closure offsets⟩
  · intro left right
    exact ⟨closure_mono, closure_union left right⟩
  · intro range forward
    constructor
    · rw [closure_eq_empty_iff, Range.offsets_eq_empty_iff forward]
    · intro nonempty
      obtain ⟨first, firstMember, last, lastMember, extreme⟩ :=
        Range.exists_extremes nonempty
      exact ⟨first, firstMember, last, lastMember, extreme,
        Range.closure_offsets_eq_between forward firstMember lastMember
          extreme⟩

/-- Two offsets on either side of zero. -/
def aroundZero : OffsetSet :=
  ofList [4, -2]

/-- The same offsets with two further ones. -/
def beyondZero : OffsetSet :=
  ofList [4, -2, 9, 0]

/-- Intervals out of order, one of which ends in an earlier file than it starts
in. -/
def disordered : Range :=
  ⟨[⟨positionAt 7, positionAt 9⟩, ⟨⟨⟨"g", 2⟩, 1, 2⟩, ⟨⟨"f", 4⟩, 1, 4⟩⟩,
    ⟨positionAt 3, positionAt 3⟩]⟩

/-- All integers from some negative one on. -/
def fromBelowZero : Set Int :=
  {offset | -5 ≤ offset}

/-- A set with a negative member stays inside an infinite one when it is closed,
and inside the closure of a larger one. The closed offsets of a range that is not
canonical run from the least start to the greatest stop. -/
theorem closure_is_least_contiguous_of_disordered :
    Contiguous fromBelowZero ∧
    (∀ offset ∈ aroundZero, offset ∈ fromBelowZero) ∧
    (∀ offset ∈ aroundZero.closure, offset ∈ fromBelowZero) ∧
    aroundZero ⊆ beyondZero ∧ aroundZero.closure ⊆ beyondZero.closure ∧
    (∀ interval ∈ disordered.intervals,
      interval.start.offset ≤ interval.stop.offset) ∧
    ¬disordered.Canonical ∧ disordered ≠ ∅ ∧
    disordered.offsets.closure ≠ ∅ ∧
    disordered.offsets.closure = .between 2 9 := by
  obtain ⟨ofSets, ofPairs, ofRanges⟩ := closure_is_least_contiguous
  have contiguous : Contiguous fromBelowZero := by
    intro first firstPresent _ _ offset afterFirst _
    exact le_trans firstPresent afterFirst
  have inside : ∀ offset ∈ aroundZero, offset ∈ fromBelowZero := by
    change ∀ offset ∈ aroundZero.toList, -5 ≤ offset
    decide
  obtain ⟨-, -, least, -⟩ := ofSets aroundZero
  obtain ⟨monotone, -⟩ := ofPairs aroundZero beyondZero
  have forward : ∀ interval ∈ disordered.intervals,
      interval.start.offset ≤ interval.stop.offset := by
    decide
  obtain ⟨emptyIff, extremes⟩ := ofRanges disordered forward
  obtain ⟨first, firstMember, last, lastMember, extreme, closed⟩ :=
    extremes (by decide)
  have firstStart : first.start.offset = 2 := by
    have notBefore : ∀ interval ∈ disordered.intervals,
        2 ≤ interval.start.offset := by
      decide
    have notAfter := (extreme ⟨⟨⟨"g", 2⟩, 1, 2⟩, ⟨⟨"f", 4⟩, 1, 4⟩⟩
      (by decide)).1
    exact le_antisymm notAfter (notBefore first firstMember)
  have lastStop : last.stop.offset = 9 := by
    have notAfter : ∀ interval ∈ disordered.intervals,
        interval.stop.offset ≤ 9 := by
      decide
    have notBefore := (extreme ⟨positionAt 7, positionAt 9⟩ (by decide)).2
    exact le_antisymm (notAfter last lastMember) notBefore
  rw [firstStart, lastStop] at closed
  have included : aroundZero ⊆ beyondZero := by decide
  exact ⟨contiguous, inside, least _ contiguous inside, included,
    monotone included, forward, by decide, by decide,
    emptyIff.not.mpr (by decide), closed⟩

end OffsetSet

end Locus
