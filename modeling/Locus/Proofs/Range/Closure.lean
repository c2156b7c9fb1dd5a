import Locus.Proofs.Offsets
import Locus.Proofs.Range.TightBound

/-!
# Bounds and closures

The closure of a set of offsets runs from its least to its greatest member. In a
single file the order of positions is the order of offsets, so the offsets of a
tight bound are the closure of the offsets of its range: nothing is missing
between the least and the greatest one, and nothing is added beyond them.
-/

namespace Locus

namespace Range

open Sample (positionAt)

variable {intervals : List Interval} {bound : Interval}

section OneFile

variable {file : String}
variable (tight : TightBound intervals bound)
  (ordered : ∀ interval ∈ intervals, interval.Ordered)
  (liesIn : ∀ interval ∈ intervals, interval.LiesIn file)

include tight ordered liesIn

/-- Within one file the offsets of a tight bound are the closure of those of the
intervals. -/
theorem TightBound.offsets_eq_closure :
    bound.offsets = (offsets ⟨intervals⟩).closure := by
  have forward : ∀ interval ∈ intervals,
      interval.start.offset ≤ interval.stop.offset := by
    intro interval member
    have sameFile := (liesIn interval member).inOneFile
    exact (Point.le_iff_of_file_eq sameFile).mp (ordered interval member)
  obtain ⟨startFile, stopFile⟩ := tight.endsIn liesIn
  have inside : ∀ interval ∈ intervals,
      bound.start.offset ≤ interval.start.offset ∧
        interval.stop.offset ≤ bound.stop.offset := by
    intro interval member
    obtain ⟨start, stop⟩ := tight.contains interval member
    obtain ⟨ownStartFile, ownStopFile⟩ := liesIn interval member
    have sameStartFile := startFile.trans ownStartFile.symm
    have sameStopFile := ownStopFile.trans stopFile.symm
    exact ⟨(Point.le_iff_of_file_eq sameStartFile).mp start,
      (Point.le_iff_of_file_eq sameStopFile).mp stop⟩
  obtain ⟨first, firstMember, start⟩ := tight.starts
  obtain ⟨last, lastMember, stop⟩ := tight.stops
  rw [start, stop] at inside
  rw [closure_offsets_eq_between forward firstMember lastMember inside,
    Interval.offsets, start, stop]

end OneFile

theorem offsets_pair (left right : Interval) :
    offsets ⟨[left, right]⟩ = left.offsets ∪ right.offsets := by
  ext offset
  simp

/-- A canonical range that is not empty has a valid outer bound. It contains
the intervals of the range and is the least interval that does. Where all ends
are in one file, its offsets are the closure of the offsets of the range, and
the offsets of the hull of two valid intervals are the closure of theirs. -/
theorem bounds_cover_closure :
    (∀ (range : Range) (file : String), range ≠ ∅ → range.Canonical →
      (∀ interval ∈ range.intervals, interval.LiesIn file) →
        ∃ bound, range.outer? = some bound ∧ bound.Valid ∧
          bound.offsets = range.offsets.closure ∧
          (∀ interval ∈ range.intervals, interval.Within bound) ∧
          (∀ other : Interval,
            (∀ interval ∈ range.intervals, interval.Within other) →
              bound.Within other)) ∧
    (∀ (left right : Interval) (file : String), left.Valid → right.Valid →
      left.LiesIn file → right.LiesIn file →
        (left.hull right).offsets =
          (left.offsets ∪ right.offsets).closure) := by
  constructor
  · intro range file nonempty canonical liesIn
    obtain ⟨bound, bounded⟩ := exists_outer_of_ne_empty nonempty
    have tight := canonical.spaced.tightBound_outer bounded
    exact ⟨bound, bounded, tight.valid canonical.1,
      tight.offsets_eq_closure canonical.spaced.ordered liesIn,
      tight.contains, fun _ => tight.within⟩
  · intro left right file leftValid rightValid leftLiesIn rightLiesIn
    have tight := tightBound_hull leftValid.ordered rightValid.ordered
    rw [← offsets_pair]
    apply tight.offsets_eq_closure
    · simp only [List.forall_mem_cons]
      exact ⟨leftValid.ordered, rightValid.ordered, by simp⟩
    · simp only [List.forall_mem_cons]
      exact ⟨leftLiesIn, rightLiesIn, by simp⟩

/-- A word on the first line, an empty interval, and a stretch around the line
break. -/
def spread : Range :=
  ⟨[⟨positionAt 3, positionAt 5⟩, ⟨positionAt 8, positionAt 8⟩,
    ⟨positionAt 10, positionAt 12⟩]⟩

/-- The bound of the spread intervals closes both gaps, and the hull of the last
two does so in either order. -/
theorem bounds_cover_closure_of_spread :
    spread ≠ ∅ ∧ spread.Canonical ∧
    (∀ interval ∈ spread.intervals, interval.LiesIn Sample.file) ∧
    spread.outer? = some ⟨positionAt 3, positionAt 12⟩ ∧
    spread.offsets.closure = .between 3 12 ∧
    (∀ interval ∈ spread.intervals,
      interval.Within ⟨positionAt 1, positionAt 12⟩) ∧
    (Interval.mk (positionAt 3) (positionAt 12)).Within
      ⟨positionAt 1, positionAt 12⟩ ∧
    (Interval.mk (positionAt 10) (positionAt 12)).Valid ∧
    (Interval.mk (positionAt 8) (positionAt 8)).Valid ∧
    (OffsetSet.between 10 12 ∪ .between 8 8).closure = .between 8 12 := by
  obtain ⟨ofRanges, ofPairs⟩ := bounds_cover_closure
  have liesIn :
      ∀ interval ∈ spread.intervals, interval.LiesIn Sample.file := by
    decide
  obtain ⟨bound, bounded, -, closed, -, least⟩ :=
    ofRanges spread Sample.file (by decide) (by decide) liesIn
  cases bounded
  have pair := ofPairs ⟨positionAt 10, positionAt 12⟩
    ⟨positionAt 8, positionAt 8⟩ Sample.file (by decide) (by decide)
    (by decide) (by decide)
  have around : ∀ interval ∈ spread.intervals,
      interval.Within ⟨positionAt 1, positionAt 12⟩ := by
    decide
  exact ⟨by decide, by decide, liesIn, rfl, closed.symm, around,
    least _ around, by decide, by decide, pair.symm⟩

end Range

end Locus
