import Locus.Range.Basic

/-!
# Normal form of a list of intervals

Any list of intervals has a range: sort it and merge neighbours that overlap
or touch. The merge looks at one pending interval at a time and lets it absorb
the following ones until a gap comes.
-/

namespace Locus
namespace Range

/-- Merge a pending interval with those that follow it, up to the first gap,
and go on from there. -/
def coalesce (pending : Interval) : List Interval → List Interval
  | [] => [pending]
  | next :: rest =>
      if pending.stop < next.start then
        pending :: coalesce next rest
      else
        coalesce (pending.hull next) rest

/-- Merge neighbours that overlap or touch. -/
def joinNeighbours : List Interval → List Interval
  | [] => []
  | interval :: rest => coalesce interval rest

/-- The range of a list of intervals in any order. -/
def ofIntervals (intervals : List Interval) : Range :=
  ⟨joinNeighbours (ascending intervals)⟩

@[simp] theorem ofIntervals_nil : ofIntervals [] = ∅ := by
  simp [ofIntervals, ascending, joinNeighbours]
  rfl

@[simp] theorem ofIntervals_singleton (interval : Interval) :
    ofIntervals [interval] = interval.toRange := by
  simp [ofIntervals, ascending, joinNeighbours, coalesce]
  rfl

/-- Merging never lengthens a list. -/
theorem length_coalesce_le (pending : Interval) (rest : List Interval) :
    (coalesce pending rest).length ≤ rest.length + 1 := by
  induction rest generalizing pending with
  | nil => simp [coalesce]
  | cons next rest inductionHypothesis =>
      unfold coalesce
      split
      · simpa using inductionHypothesis next
      · exact Nat.le_succ_of_le (inductionHypothesis _)

end Range
end Locus
