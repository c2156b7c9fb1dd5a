import Locus.Proofs.Order

/-!
# What intervals cover

An interval covers the points from its start to its stop; whether the stop
itself counts is left to an edge. Two intervals meet when they overlap or
touch. The hull of two intervals that meet covers exactly what either of them
covers, at both edges, and its ends are ends of the two.
-/

namespace Locus

/-- Whether the stop of an interval counts as covered. -/
inductive Edge
  /-- The stop counts. -/
  | closed
  /-- The stop does not count. -/
  | halfOpen
  deriving DecidableEq

/-- A point does not lie beyond a stop. -/
def Edge.Admits (edge : Edge) (point stop : Point) : Prop :=
  match edge with
  | .closed => point ≤ stop
  | .halfOpen => point < stop

namespace Edge

instance : (edge : Edge) → (point stop : Point) →
    Decidable (edge.Admits point stop)
  | .closed, point, stop => inferInstanceAs (Decidable (point ≤ stop))
  | .halfOpen, point, stop => inferInstanceAs (Decidable (point < stop))

variable {edge : Edge} {point stop : Point}

theorem Admits.le (admitted : edge.Admits point stop) : point ≤ stop := by
  cases edge with
  | closed => exact admitted
  | halfOpen => exact le_of_lt admitted

theorem admits_of_lt (before : point < stop) : edge.Admits point stop := by
  cases edge with
  | closed => exact le_of_lt before
  | halfOpen => exact before

/-- A stop further back admits what an earlier one does. -/
theorem Admits.trans_le
    {other : Point}
    (admitted : edge.Admits point stop)
    (ordered : stop ≤ other) :
    edge.Admits point other := by
  cases edge with
  | closed => exact le_trans admitted ordered
  | halfOpen => exact lt_of_lt_of_le admitted ordered

theorem admits_max_iff {first second : Point} :
    edge.Admits point (max first second) ↔
      edge.Admits point first ∨ edge.Admits point second := by
  cases edge with
  | closed => exact le_max_iff
  | halfOpen => exact lt_max_iff

end Edge

namespace Interval

/-- The start is not after the stop. -/
def Ordered (interval : Interval) : Prop :=
  interval.start ≤ interval.stop

instance (interval : Interval) : Decidable interval.Ordered :=
  inferInstanceAs (Decidable (_ ≤ _))

theorem Valid.ordered {interval : Interval} (valid : interval.Valid) :
    interval.Ordered :=
  valid.2.2

/-- The first interval stops strictly before the second one starts. -/
def Before (first second : Interval) : Prop :=
  first.stop < second.start

/-- The intervals overlap or touch. -/
def Meets (left right : Interval) : Prop :=
  left.start ≤ right.stop ∧ right.start ≤ left.stop

/-- Both ends belong to a given pool of positions. -/
def EndsIn (pool : Position → Prop) (interval : Interval) : Prop :=
  pool interval.start ∧ pool interval.stop

/-- A point lies from the start up to the stop. -/
def Covers (edge : Edge) (interval : Interval) (point : Point) : Prop :=
  interval.start.toPoint ≤ point ∧ edge.Admits point interval.stop.toPoint

instance (edge : Edge) (interval : Interval) (point : Point) :
    Decidable (interval.Covers edge point) :=
  inferInstanceAs (Decidable (_ ∧ _))

variable {left right other : Interval}

theorem start_le_of_le (ordered : left ≤ right) : left.start ≤ right.start := by
  change ((compareOn start left right).then
    (compareOn stop left right)).isLE at ordered
  exact Ordering.isLE_left_of_isLE_then ordered

/-- An interval that neither starts nor stops after another one comes before
it, or is tied with it. -/
theorem le_of_ends_le
    (starts : left.start ≤ right.start)
    (stops : left.stop ≤ right.stop) :
    left ≤ right := by
  change ((compareOn start left right).then
    (compareOn stop left right)).isLE
  exact Ordering.isLE_then_iff_and.mpr ⟨starts, Or.inr stops⟩

theorem meets_of_not_before
    (notBefore : ¬left.stop < right.start)
    (notAfter : ¬right.stop < left.start) :
    left.Meets right :=
  ⟨Std.not_lt.mp notAfter, Std.not_lt.mp notBefore⟩

theorem Meets.symm (meets : left.Meets right) : right.Meets left :=
  ⟨meets.2, meets.1⟩

/-- Ordered intervals with tied starts meet. -/
theorem meets_of_start_equiv
    (leftOrdered : left.Ordered)
    (rightOrdered : right.Ordered)
    (tied : left.start ≈ right.start) :
    left.Meets right := by
  rw [Position.equiv_iff_le_and_le] at tied
  exact ⟨le_trans tied.1 rightOrdered, le_trans tied.2 leftOrdered⟩

/-- Ordered intervals with tied stops meet. -/
theorem meets_of_stop_equiv
    (leftOrdered : left.Ordered)
    (rightOrdered : right.Ordered)
    (tied : left.stop ≈ right.stop) :
    left.Meets right := by
  rw [Position.equiv_iff_le_and_le] at tied
  exact ⟨le_trans leftOrdered tied.1, le_trans rightOrdered tied.2⟩

theorem ordered_hull (left right : Interval) : (left.hull right).Ordered := by
  have startLe : (left.hull right).start ≤ left.start := by
    refine le_trans (Position.earlier_le_left _ _) ?_
    exact le_trans (Position.earlier_le_left _ _)
      (Position.earlier_le_left _ _)
  have leStop : left.start ≤ (left.hull right).stop := by
    refine le_trans ?_ (Position.le_later_left _ _)
    exact le_trans (Position.le_later_left _ _)
      (Position.le_later_left _ _)
  exact le_trans startLe leStop

/-- The hull of two intervals that lie end to end drops the position between
them. -/
theorem hull_of_end_to_end
    {first middle last : Position}
    (front : first ≤ middle)
    (back : middle ≤ last) :
    (Interval.mk first middle).hull ⟨middle, last⟩ = ⟨first, last⟩ := by
  have frontOrdered : (Interval.mk first middle).Ordered := front
  have backOrdered : (Interval.mk middle last).Ordered := back
  rw [hull_of_ordered frontOrdered backOrdered,
    Position.earlier_of_le front, Position.later_of_le back]

section Ordered

variable (leftOrdered : left.Ordered) (rightOrdered : right.Ordered)

include leftOrdered rightOrdered

theorem start_hull_eq_or :
    (left.hull right).start = left.start ∨
      (left.hull right).start = right.start := by
  rw [hull_of_ordered leftOrdered rightOrdered]
  exact Position.earlier_eq_or left.start right.start

theorem stop_hull_eq_or :
    (left.hull right).stop = left.stop ∨
      (left.hull right).stop = right.stop := by
  rw [hull_of_ordered leftOrdered rightOrdered]
  exact Position.later_eq_or left.stop right.stop

theorem start_hull_of_le (startsFirst : left.start ≤ right.start) :
    (left.hull right).start = left.start := by
  rw [hull_of_ordered leftOrdered rightOrdered]
  exact Position.earlier_of_le startsFirst

/-- A gap before both intervals is a gap before their hull. -/
theorem before_hull
    (beforeLeft : other.Before left)
    (beforeRight : other.Before right) :
    other.Before (left.hull right) := by
  unfold Before at *
  rcases start_hull_eq_or leftOrdered rightOrdered with equal | equal
  · rw [equal]
    exact beforeLeft
  · rw [equal]
    exact beforeRight

/-- A hull stops no later than the interval that stops last. -/
theorem stop_hull_le
    {bound : Position}
    (leftLe : left.stop ≤ bound)
    (rightLe : right.stop ≤ bound) :
    (left.hull right).stop ≤ bound := by
  rcases stop_hull_eq_or leftOrdered rightOrdered with equal | equal
  · rw [equal]
    exact leftLe
  · rw [equal]
    exact rightLe

/-- The ends of a hull are ends of its two intervals. -/
theorem endsIn_hull
    {pool : Position → Prop}
    (leftEnds : left.EndsIn pool)
    (rightEnds : right.EndsIn pool) :
    (left.hull right).EndsIn pool := by
  constructor
  · rcases start_hull_eq_or leftOrdered rightOrdered with equal | equal
    · rw [equal]
      exact leftEnds.1
    · rw [equal]
      exact rightEnds.1
  · rcases stop_hull_eq_or leftOrdered rightOrdered with equal | equal
    · rw [equal]
      exact leftEnds.2
    · rw [equal]
      exact rightEnds.2

/-- The hull of two intervals that meet covers what either of them covers.
Between the two there is no room for a further point. -/
theorem covers_hull
    (meets : left.Meets right)
    (edge : Edge)
    (point : Point) :
    (left.hull right).Covers edge point ↔
      left.Covers edge point ∨ right.Covers edge point := by
  unfold Covers
  rw [hull_of_ordered leftOrdered rightOrdered]
  simp only [Position.toPoint_earlier, Position.toPoint_later,
    min_le_iff, Edge.admits_max_iff]
  constructor
  · rintro ⟨afterLeft | afterRight, admitted⟩
    · rcases lt_or_ge point left.stop.toPoint with inside | beyond
      · exact Or.inl ⟨afterLeft, Edge.admits_of_lt inside⟩
      · rcases admitted with admitted | admitted
        · exact Or.inl ⟨afterLeft, admitted⟩
        · exact Or.inr ⟨le_trans meets.2 beyond, admitted⟩
    · rcases lt_or_ge point right.stop.toPoint with inside | beyond
      · exact Or.inr ⟨afterRight, Edge.admits_of_lt inside⟩
      · rcases admitted with admitted | admitted
        · exact Or.inl ⟨le_trans meets.1 beyond, admitted⟩
        · exact Or.inr ⟨afterRight, admitted⟩
  · rintro (⟨after, admitted⟩ | ⟨after, admitted⟩)
    · exact ⟨Or.inl after, Or.inl admitted⟩
    · exact ⟨Or.inr after, Or.inr admitted⟩

end Ordered

theorem Before.trans
    (ordered : right.Ordered)
    (front : left.Before right)
    (back : right.Before other) :
    left.Before other :=
  calc
    left.stop < right.start := front
    _ ≤ right.stop := ordered
    _ < other.start := back

theorem Before.start_lt_start
    (gap : left.Before right)
    (ordered : left.Ordered) :
    left.start < right.start :=
  lt_of_le_of_lt ordered gap

theorem Before.stop_lt_stop
    (gap : left.Before right)
    (ordered : right.Ordered) :
    left.stop < right.stop :=
  lt_of_lt_of_le gap ordered

/-- An interval that stops before another one starts comes before it. -/
theorem Before.le
    (gap : left.Before right)
    (leftOrdered : left.Ordered)
    (rightOrdered : right.Ordered) :
    left ≤ right := by
  apply le_of_ends_le
  · exact le_of_lt (gap.start_lt_start leftOrdered)
  · exact le_of_lt (gap.stop_lt_stop rightOrdered)

/-- No point lies on both sides of a gap, even if stops count. -/
theorem Before.not_covers
    (gap : left.Before right)
    {edge : Edge}
    {point : Point}
    (covered : left.Covers edge point) :
    ¬right.Covers edge point := by
  rintro ⟨afterStart, -⟩
  have beyond : left.stop.toPoint < point := lt_of_lt_of_le gap afterStart
  exact absurd covered.2.le (not_le_of_gt beyond)

/-- From the lesser start to the greater stop. Tied starts are taken from the
left and tied stops from the right. -/
def join (left right : Interval) : Interval where
  start := left.start.earlier right.start
  stop := left.stop.later right.stop

/-- The hull of ordered intervals asks only which one starts first and which one
stops last. -/
theorem hull_eq_join
    (leftOrdered : left.Ordered)
    (rightOrdered : right.Ordered) :
    left.hull right = left.join right :=
  hull_of_ordered leftOrdered rightOrdered

instance : Std.Associative join where
  assoc first second third :=
    congrArg₂ mk
      (Position.earlier_assoc first.start second.start third.start)
      (Position.later_assoc first.stop second.stop third.stop)

/-- Across a gap no ends are tied, so the order of the two intervals does not
matter. -/
theorem Before.join_comm
    (gap : left.Before right)
    (leftOrdered : left.Ordered)
    (rightOrdered : right.Ordered) :
    left.join right = right.join left := by
  have starts := gap.start_lt_start leftOrdered
  have stops := gap.stop_lt_stop rightOrdered
  exact congrArg₂ mk (Position.earlier_comm_of_lt starts)
    (Position.later_comm_of_lt stops)

theorem valid_hull
    (leftValid : left.Valid)
    (rightValid : right.Valid) :
    (left.hull right).Valid := by
  have ends : (left.hull right).EndsIn Position.Valid :=
    endsIn_hull leftValid.ordered rightValid.ordered
      ⟨leftValid.1, leftValid.2.1⟩ ⟨rightValid.1, rightValid.2.1⟩
  exact ⟨ends.1, ends.2, ordered_hull left right⟩

end Interval

end Locus
