import Locus.Position.Basic

/-!
# Intervals

An interval runs from its start up to its stop. Nothing forces the two into
one text or into order: `Interval.Valid` says when they are. Intervals compare
by start first and by stop second.
-/

namespace Locus

/-- A contiguous stretch of text. -/
structure Interval where
  /-- Position of the first character. -/
  start : Position
  /-- Position after the last character. -/
  stop : Position
  deriving DecidableEq

namespace Interval

instance : Ord Interval where
  compare := compareLex (compareOn start) (compareOn stop)

instance : LT Interval := ltOfOrd

instance : LE Interval := leOfOrd

instance : Std.TransOrd Interval :=
  inferInstanceAs
    (Std.TransCmp (compareLex (compareOn Interval.start) (compareOn Interval.stop)))

instance : Std.IsLinearPreorder Interval := .of_ord

/-- Intervals are equivalent when their ends are. -/
instance : Setoid Interval := tiedSetoid Interval

instance (first second : Interval) : Decidable (first ≈ second) :=
  inferInstanceAs (Decidable (Tied first second))

theorem equiv_iff {first second : Interval} :
    first ≈ second ↔
      first.start ≈ second.start ∧ first.stop ≈ second.stop :=
  compareLex_eq_eq

theorem lt_iff {first second : Interval} :
    first < second ↔
      first.start < second.start ∨
        first.start ≈ second.start ∧ first.stop < second.stop := by
  change (compare first.start second.start).then
    (compare first.stop second.stop) = .lt ↔ _
  rw [Ordering.then_eq_lt]
  rfl

/-- Name of the text the interval starts in. -/
def file (interval : Interval) : String :=
  interval.start.file

/-- Number of characters, if both ends are in one text; negative when the
ends are out of order. -/
def length (interval : Interval) : Int :=
  interval.stop.offset - interval.start.offset

/-- Both ends are valid and the start is not after the stop. -/
def Valid (interval : Interval) : Prop :=
  interval.start.Valid ∧ interval.stop.Valid ∧ interval.start ≤ interval.stop

instance (interval : Interval) : Decidable interval.Valid :=
  inferInstanceAs (Decidable (_ ∧ _ ∧ _))

/-- The interval between two positions in either order; tied positions keep
their order. -/
def spanning (first second : Position) : Interval where
  start := first.earlier second
  stop := first.later second

/-- Spanning two positions always gives an ordered interval. -/
theorem spanning_ordered (first second : Position) :
    (spanning first second).start ≤ (spanning first second).stop := by
  unfold spanning Position.earlier Position.later
  split <;> grind

theorem spanning_of_le
    {first second : Position}
    (ordered : first ≤ second) :
    spanning first second = ⟨first, second⟩ := by
  simp [spanning, Position.earlier_of_le, Position.later_of_le, ordered]

/-- The least interval over all four ends of two intervals, the gap between
them included. Of tied least ends the first is kept and of tied greatest ends
the last, in the order left start, right start, left stop, right stop. -/
def hull (left right : Interval) : Interval where
  start :=
    ((left.start.earlier right.start).earlier left.stop).earlier right.stop
  stop :=
    ((left.start.later right.start).later left.stop).later right.stop

/-- For intervals in order the hull runs from the lesser start to the greater
stop. -/
theorem hull_of_ordered
    {left right : Interval}
    (leftOrdered : left.start ≤ left.stop)
    (rightOrdered : right.start ≤ right.stop) :
    left.hull right =
      ⟨left.start.earlier right.start, left.stop.later right.stop⟩ := by
  unfold hull Position.earlier Position.later
  simp only [mk.injEq]
  constructor <;> grind

end Interval

end Locus
