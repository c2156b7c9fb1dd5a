import Locus.Proofs.Range.Union
import Locus.Range.Normal

/-!
# The normal form and the union

Merging sorted intervals looks at one pending interval only. As starts ascend,
an interval that the pending one stops short of lies beyond everything merged
so far, and one that it reaches meets it. So the normal form covers what its
intervals cover and is canonical. A canonical range is determined by its cover,
which makes the normal form of two lists together the union of their normal
forms.
-/

namespace Locus
namespace Range

open Sample (positionAt)

/-- No interval starts before an earlier one does. -/
def Rising (intervals : List Interval) : Prop :=
  intervals.Pairwise fun first second => first.start ≤ second.start

theorem rising_ascending (intervals : List Interval) :
    Rising (ascending intervals) :=
  (pairwise_ascending intervals).imp Interval.start_le_of_le

theorem forall_mem_ascending_iff
    {intervals : List Interval}
    {Holds : Interval → Prop} :
    (∀ interval ∈ ascending intervals, Holds interval) ↔
      ∀ interval ∈ intervals, Holds interval := by
  simp only [mem_ascending]

section Coalesce

variable {pending next : Interval} {rest : List Interval}

theorem Rising.tail (rising : Rising (pending :: rest)) : Rising rest :=
  (List.pairwise_cons.mp rising).2

theorem Rising.start_le
    (rising : Rising (pending :: rest)) :
    ∀ later ∈ rest, pending.start ≤ later.start :=
  (List.pairwise_cons.mp rising).1

/-- A gap before the next interval is a gap before all that follow. -/
theorem Rising.before_all
    (rising : Rising (next :: rest))
    (gap : pending.Before next) :
    ∀ later ∈ next :: rest, pending.Before later := by
  refine List.forall_mem_cons.mpr ⟨gap, ?_⟩
  intro later member
  exact lt_of_lt_of_le gap (rising.start_le later member)

/-- An interval that the pending one reaches meets it. -/
theorem Rising.meets
    (rising : Rising (pending :: next :: rest))
    (nextOrdered : next.Ordered)
    (noGap : ¬pending.stop < next.start) :
    pending.Meets next :=
  ⟨le_trans (rising.start_le next (by simp)) nextOrdered,
    Std.not_lt.mp noGap⟩

/-- The pending interval keeps its start while it absorbs the next one. -/
theorem Rising.absorb
    (rising : Rising (pending :: next :: rest))
    (pendingOrdered : pending.Ordered)
    (nextOrdered : next.Ordered) :
    Rising (pending.hull next :: rest) := by
  refine List.pairwise_cons.mpr ⟨?_, rising.tail.tail⟩
  intro later member
  rw [Interval.start_hull_of_le pendingOrdered nextOrdered
    (rising.start_le next (by simp))]
  exact rising.start_le later (by simp [member])

/-- What holds of all intervals and is kept by the hull of ordered intervals
that meet holds of the merged list. -/
theorem forall_coalesce
    {Holds : Interval → Prop}
    (keeps : ∀ {left right : Interval}, left.Ordered → right.Ordered →
      left.Meets right → Holds left → Holds right →
        Holds (left.hull right))
    (rising : Rising (pending :: rest))
    (ordered : ∀ interval ∈ pending :: rest, interval.Ordered)
    (hold : ∀ interval ∈ pending :: rest, Holds interval) :
    ∀ interval ∈ coalesce pending rest, Holds interval := by
  fun_induction coalesce pending rest with
  | case1 pending => exact hold
  | case2 pending next rest gap inductionHypothesis =>
      rw [List.forall_mem_cons] at ordered hold ⊢
      exact ⟨hold.1,
        inductionHypothesis rising.tail ordered.2 hold.2⟩
  | case3 pending next rest noGap inductionHypothesis =>
      simp only [List.forall_mem_cons] at ordered hold
      obtain ⟨pendingOrdered, nextOrdered, restOrdered⟩ := ordered
      obtain ⟨pendingHolds, nextHolds, restHold⟩ := hold
      have merged := keeps pendingOrdered nextOrdered
        (rising.meets nextOrdered noGap) pendingHolds nextHolds
      apply inductionHypothesis (rising.absorb pendingOrdered nextOrdered)
      · exact List.forall_mem_cons.mpr
          ⟨Interval.ordered_hull pending next, restOrdered⟩
      · exact List.forall_mem_cons.mpr ⟨merged, restHold⟩

/-- Merging covers exactly what the merged intervals cover. -/
theorem covers_coalesce
    (rising : Rising (pending :: rest))
    (ordered : ∀ interval ∈ pending :: rest, interval.Ordered)
    (edge : Edge)
    (point : Point) :
    Covers edge ⟨coalesce pending rest⟩ point ↔
      Covers edge ⟨pending :: rest⟩ point := by
  fun_induction coalesce pending rest with
  | case1 pending => exact Iff.rfl
  | case2 pending next rest gap inductionHypothesis =>
      rw [List.forall_mem_cons] at ordered
      rw [covers_cons_iff, covers_cons_iff pending,
        inductionHypothesis rising.tail ordered.2]
  | case3 pending next rest noGap inductionHypothesis =>
      simp only [List.forall_mem_cons] at ordered
      obtain ⟨pendingOrdered, nextOrdered, restOrdered⟩ := ordered
      have merged := Interval.covers_hull pendingOrdered nextOrdered
        (rising.meets nextOrdered noGap) edge point
      have remaining := inductionHypothesis
        (rising.absorb pendingOrdered nextOrdered)
        (List.forall_mem_cons.mpr
          ⟨Interval.ordered_hull pending next, restOrdered⟩)
      rw [remaining, covers_cons_iff, merged, covers_cons_iff pending,
        covers_cons_iff next, or_assoc]

theorem before_coalesce
    {interval : Interval}
    (rising : Rising (pending :: rest))
    (ordered : ∀ interval ∈ pending :: rest, interval.Ordered) :
    (∀ later ∈ pending :: rest, interval.Before later) →
      ∀ later ∈ coalesce pending rest, interval.Before later :=
  forall_coalesce
    (fun leftOrdered rightOrdered _ =>
      Interval.before_hull leftOrdered rightOrdered)
    rising ordered

/-- Merging leaves gaps only. Everything after a gap starts no earlier than
the interval behind the gap. -/
theorem spaced_coalesce
    (rising : Rising (pending :: rest))
    (ordered : ∀ interval ∈ pending :: rest, interval.Ordered) :
    Spaced (coalesce pending rest) := by
  fun_induction coalesce pending rest with
  | case1 pending =>
      exact ⟨ordered, List.pairwise_singleton _ _⟩
  | case2 pending next rest gap inductionHypothesis =>
      rw [List.forall_mem_cons] at ordered
      have restRising := rising.tail
      exact spaced_cons_iff.mpr ⟨ordered.1,
        before_coalesce restRising ordered.2 (restRising.before_all gap),
        inductionHypothesis restRising ordered.2⟩
  | case3 pending next rest noGap inductionHypothesis =>
      simp only [List.forall_mem_cons] at ordered
      obtain ⟨pendingOrdered, nextOrdered, restOrdered⟩ := ordered
      apply inductionHypothesis (rising.absorb pendingOrdered nextOrdered)
      exact List.forall_mem_cons.mpr
        ⟨Interval.ordered_hull pending next, restOrdered⟩

end Coalesce

section OfIntervals

variable {intervals : List Interval}

theorem forall_ofIntervals
    {Holds : Interval → Prop}
    (keeps : ∀ {left right : Interval}, left.Ordered → right.Ordered →
      left.Meets right → Holds left → Holds right →
        Holds (left.hull right))
    (ordered : ∀ interval ∈ intervals, interval.Ordered)
    (hold : ∀ interval ∈ intervals, Holds interval) :
    ∀ interval ∈ (ofIntervals intervals).intervals, Holds interval := by
  have rising := rising_ascending intervals
  rw [← forall_mem_ascending_iff] at ordered hold
  unfold ofIntervals joinNeighbours
  cases sorted : ascending intervals with
  | nil => simp
  | cons pending rest =>
      rw [sorted] at rising ordered hold
      exact forall_coalesce keeps rising ordered hold

theorem endsIn_ofIntervals
    {pool : Position → Prop}
    (ordered : ∀ interval ∈ intervals, interval.Ordered) :
    (∀ interval ∈ intervals, interval.EndsIn pool) →
      ∀ interval ∈ (ofIntervals intervals).intervals,
        interval.EndsIn pool :=
  forall_ofIntervals
    (fun leftOrdered rightOrdered _ =>
      Interval.endsIn_hull leftOrdered rightOrdered)
    ordered

/-- The normal form covers what the intervals cover. -/
theorem covers_ofIntervals
    (ordered : ∀ interval ∈ intervals, interval.Ordered)
    (edge : Edge)
    (point : Point) :
    (ofIntervals intervals).Covers edge point ↔
      Covers edge ⟨intervals⟩ point := by
  have rearranged : Covers edge ⟨ascending intervals⟩ point ↔
      Covers edge ⟨intervals⟩ point := by
    simp only [Covers, mem_ascending]
  have rising := rising_ascending intervals
  rw [← forall_mem_ascending_iff] at ordered
  rw [← rearranged]
  unfold ofIntervals joinNeighbours
  cases sorted : ascending intervals with
  | nil => exact Iff.rfl
  | cons pending rest =>
      rw [sorted] at rising ordered
      exact covers_coalesce rising ordered edge point

theorem spaced_ofIntervals
    (ordered : ∀ interval ∈ intervals, interval.Ordered) :
    Spaced (ofIntervals intervals).intervals := by
  have rising := rising_ascending intervals
  rw [← forall_mem_ascending_iff] at ordered
  unfold ofIntervals joinNeighbours
  cases sorted : ascending intervals with
  | nil => exact spaced_nil
  | cons pending rest =>
      rw [sorted] at rising ordered
      exact spaced_coalesce rising ordered

/-- The normal form of valid intervals is canonical. -/
theorem canonical_ofIntervals
    (valid : ∀ interval ∈ intervals, interval.Valid) :
    (ofIntervals intervals).Canonical := by
  have ordered := ordered_of_valid valid
  refine canonical_iff_spaced.mpr ⟨?_, spaced_ofIntervals ordered⟩
  exact forall_ofIntervals
    (fun _ _ _ => Interval.valid_hull) ordered valid

/-- A canonical range that covers what the intervals cover is their normal
form. -/
theorem Canonical.equiv_ofIntervals
    {range : Range}
    (canonical : range.Canonical)
    (valid : ∀ interval ∈ intervals, interval.Valid)
    (same : ∀ edge point,
      range.Covers edge point ↔ Covers edge ⟨intervals⟩ point) :
    range ≈ ofIntervals intervals := by
  apply canonical.equiv_of_covers (canonical_ofIntervals valid)
  intro edge point
  rw [same, covers_ofIntervals (ordered_of_valid valid)]

/-- The normal form depends only on which intervals there are, not on their
order or on how often they occur. -/
theorem ofIntervals_equiv_of_mem_iff
    {others : List Interval}
    (valid : ∀ interval ∈ intervals, interval.Valid)
    (same : ∀ interval, interval ∈ others ↔ interval ∈ intervals) :
    ofIntervals others ≈ ofIntervals intervals := by
  have othersValid : ∀ interval ∈ others, interval.Valid := by
    intro interval member
    exact valid interval ((same interval).mp member)
  apply (canonical_ofIntervals othersValid).equiv_ofIntervals valid
  intro edge point
  rw [covers_ofIntervals (ordered_of_valid othersValid)]
  simp only [Covers, same]

end OfIntervals

section Union

theorem covers_append_iff
    {edge : Edge}
    {point : Point}
    (fronts backs : List Interval) :
    Covers edge ⟨fronts ++ backs⟩ point ↔
      Covers edge ⟨fronts⟩ point ∨ Covers edge ⟨backs⟩ point := by
  simp only [Covers, List.mem_append, or_and_right, exists_or]

theorem union_ofIntervals_equiv
    {fronts backs : List Interval}
    (frontsValid : ∀ interval ∈ fronts, interval.Valid)
    (backsValid : ∀ interval ∈ backs, interval.Valid) :
    ofIntervals fronts ∪ ofIntervals backs ≈ ofIntervals (fronts ++ backs) := by
  have frontsCanonical := canonical_ofIntervals frontsValid
  have backsCanonical := canonical_ofIntervals backsValid
  apply (frontsCanonical.union backsCanonical).equiv_ofIntervals
  · exact List.forall_mem_append.mpr ⟨frontsValid, backsValid⟩
  · intro edge point
    rw [frontsCanonical.covers_union backsCanonical, covers_append_iff,
      covers_ofIntervals (ordered_of_valid frontsValid),
      covers_ofIntervals (ordered_of_valid backsValid)]

theorem Canonical.union_equiv_ofIntervals
    {left right : Range}
    (leftCanonical : left.Canonical)
    (rightCanonical : right.Canonical) :
    left ∪ right ≈ ofIntervals (left.intervals ++ right.intervals) := by
  apply (leftCanonical.union rightCanonical).equiv_ofIntervals
  · exact List.forall_mem_append.mpr ⟨leftCanonical.1, rightCanonical.1⟩
  · intro edge point
    rw [leftCanonical.covers_union rightCanonical, covers_append_iff]

end Union

section Agreeing

/-- All starts and stops of a list of intervals. -/
def ends (intervals : List Interval) : List Position :=
  intervals.flatMap fun interval => [interval.start, interval.stop]

/-- Ends at one point agree on line and column. -/
def Agreeing (intervals : List Interval) : Prop :=
  ∀ first ∈ ends intervals, ∀ second ∈ ends intervals,
    first ≈ second → first = second

instance (intervals : List Interval) : Decidable (Agreeing intervals) :=
  inferInstanceAs (Decidable (∀ first ∈ ends intervals,
    ∀ second ∈ ends intervals, first ≈ second → first = second))

theorem endsIn_ends (intervals : List Interval) :
    ∀ interval ∈ intervals, interval.EndsIn (· ∈ ends intervals) := by
  intro interval member
  unfold ends
  constructor
  · exact List.mem_flatMap.mpr ⟨interval, member, by simp⟩
  · exact List.mem_flatMap.mpr ⟨interval, member, by simp⟩

/-- Where ends agree, a union that is equivalent to a normal form is equal to
it, since both take their ends from the same intervals. -/
theorem union_eq_ofIntervals
    {left right : Range}
    {intervals : List Interval}
    (ordered : ∀ interval ∈ intervals, interval.Ordered)
    (leftOrdered : ∀ interval ∈ left.intervals, interval.Ordered)
    (rightOrdered : ∀ interval ∈ right.intervals, interval.Ordered)
    (leftEnds : ∀ interval ∈ left.intervals,
      interval.EndsIn (· ∈ ends intervals))
    (rightEnds : ∀ interval ∈ right.intervals,
      interval.EndsIn (· ∈ ends intervals))
    (agreeing : Agreeing intervals)
    (equivalent : left ∪ right ≈ ofIntervals intervals) :
    left ∪ right = ofIntervals intervals := by
  apply eq_of_equiv_of_endsIn _ _ _ equivalent
  · exact fun position => position ∈ ends intervals
  · intro first second firstEnd secondEnd
    exact agreeing first firstEnd second secondEnd
  · exact endsIn_sweep leftOrdered rightOrdered leftEnds rightEnds
  · exact endsIn_ofIntervals ordered (endsIn_ends intervals)

end Agreeing

/-- The union agrees with sorting and merging. The normal form of two lists of
valid intervals together is the union of their normal forms, and the union of
canonical ranges is the normal form of their intervals. Where ends at one point
agree on line and column, the two sides are equal in these too. -/
theorem union_agrees_with_normal_form :
    (∀ fronts backs : List Interval,
      (∀ interval ∈ fronts ++ backs, interval.Valid) →
        ofIntervals (fronts ++ backs) ≈
            ofIntervals fronts ∪ ofIntervals backs ∧
          (Agreeing (fronts ++ backs) →
            ofIntervals (fronts ++ backs) =
              ofIntervals fronts ∪ ofIntervals backs)) ∧
    (∀ left right : Range, left.Canonical → right.Canonical →
        left ∪ right ≈ ofIntervals (left.intervals ++ right.intervals) ∧
          (Agreeing (left.intervals ++ right.intervals) →
            left ∪ right =
              ofIntervals (left.intervals ++ right.intervals))) := by
  constructor
  · intro fronts backs valid
    have ordered := ordered_of_valid valid
    have inEnds := endsIn_ends (fronts ++ backs)
    rw [List.forall_mem_append] at valid inEnds
    have equivalent := union_ofIntervals_equiv valid.1 valid.2
    refine ⟨Setoid.symm equivalent, ?_⟩
    intro agreeing
    have frontsOrdered := ordered_of_valid valid.1
    have backsOrdered := ordered_of_valid valid.2
    symm
    apply union_eq_ofIntervals ordered _ _ _ _ agreeing equivalent
    · exact (spaced_ofIntervals frontsOrdered).ordered
    · exact (spaced_ofIntervals backsOrdered).ordered
    · exact endsIn_ofIntervals frontsOrdered inEnds.1
    · exact endsIn_ofIntervals backsOrdered inEnds.2
  · intro left right leftCanonical rightCanonical
    have equivalent := leftCanonical.union_equiv_ofIntervals rightCanonical
    have inEnds := endsIn_ends (left.intervals ++ right.intervals)
    rw [List.forall_mem_append] at inEnds
    refine ⟨equivalent, ?_⟩
    intro agreeing
    have leftOrdered := leftCanonical.spaced.ordered
    have rightOrdered := rightCanonical.spaced.ordered
    apply union_eq_ofIntervals _ leftOrdered rightOrdered inEnds.1 inEnds.2
      agreeing equivalent
    exact List.forall_mem_append.mpr ⟨leftOrdered, rightOrdered⟩

/-- Falling intervals, one of them repeated. -/
def fallingFronts : List Interval :=
  [⟨positionAt 5, positionAt 8⟩, ⟨positionAt 1, positionAt 3⟩,
    ⟨positionAt 1, positionAt 3⟩]

/-- An empty interval of another file, and one that fills the gap. -/
def fallingBacks : List Interval :=
  [⟨.origin "g", .origin "g"⟩, ⟨positionAt 3, positionAt 5⟩]

/-- Lists in falling order, and canonical ranges that touch. -/
theorem union_agrees_with_normal_form_of_falling :
    (∀ interval ∈ fallingFronts ++ fallingBacks, interval.Valid) ∧
    Agreeing (fallingFronts ++ fallingBacks) ∧
    ofIntervals (fallingFronts ++ fallingBacks) =
      ofIntervals fallingFronts ∪ ofIntervals fallingBacks ∧
    touchingFront.Canonical ∧ touchingBack.Canonical ∧
    touchingFront ∪ touchingBack =
      ofIntervals (touchingFront.intervals ++ touchingBack.intervals) := by
  obtain ⟨ofLists, ofRanges⟩ := union_agrees_with_normal_form
  have lists := ofLists fallingFronts fallingBacks (by decide)
  have ranges := ofRanges touchingFront touchingBack (by decide) (by decide)
  exact ⟨by decide, by decide, lists.2 (by decide), by decide, by decide,
    ranges.2 (by decide)⟩

end Range
end Locus
