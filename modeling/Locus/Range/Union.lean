import Locus.Range.Basic

/-!
# Union of ranges

The union sweeps over both ranges at once and compares their first intervals.
An interval that stops before the other starts is done. Otherwise the two meet
and are merged, and the merged interval takes the place of the one that
stopped later, where it can absorb further intervals of the other range. Gaps
are kept. The sweep takes any operands, canonical or not.
-/

namespace Locus
namespace Range

/-- Merge two lists of intervals from left to right. -/
def sweep : List Interval → List Interval → List Interval
  | [], right => right
  | left :: leftRest, [] => left :: leftRest
  | left :: leftRest, right :: rightRest =>
      if left.stop < right.start then
        left :: sweep leftRest (right :: rightRest)
      else if right.stop < left.start then
        right :: sweep (left :: leftRest) rightRest
      else if left.stop < right.stop then
        sweep leftRest (left.hull right :: rightRest)
      else
        sweep (left.hull right :: leftRest) rightRest
  termination_by left right => left.length + right.length

@[simp] theorem sweep_nil_left (right : List Interval) :
    sweep [] right = right := by
  rw [sweep]

@[simp] theorem sweep_nil_right (left : List Interval) :
    sweep left [] = left := by
  cases left <;> rw [sweep]

/-- The location covered by either of two ranges. -/
def union (left right : Range) : Range :=
  ⟨sweep left.intervals right.intervals⟩

instance : Union Range := ⟨union⟩

@[simp] theorem intervals_union (left right : Range) :
    (left ∪ right).intervals = sweep left.intervals right.intervals := rfl

@[simp] theorem empty_union (range : Range) : ∅ ∪ range = range :=
  congrArg mk (sweep_nil_left range.intervals)

@[simp] theorem union_empty (range : Range) : range ∪ ∅ = range :=
  congrArg mk (sweep_nil_right range.intervals)

end Range
end Locus
