import Locus.Proofs.Range.Equivalence
import Locus.Proofs.Range.Union

/-!
# Canonical ranges as a semilattice

Up to equivalence the union of canonical ranges is associative, commutative and
idempotent, with the empty range at the bottom: the laws hold of the covers, and
the covers decide. Its order is inclusion. As a spaced list covers none of its
own stops at the half-open edge, an interval that it covers cannot cross a gap
and lies inside a single one of its intervals.
-/

namespace Locus

namespace Interval

/-- The first interval lies inside the second one. -/
def Within (inner outer : Interval) : Prop :=
  outer.start ≤ inner.start ∧ inner.stop ≤ outer.stop

instance (inner outer : Interval) : Decidable (inner.Within outer) :=
  inferInstanceAs (Decidable (_ ∧ _))

theorem Within.covers
    {inner outer : Interval}
    (within : inner.Within outer)
    {edge : Edge}
    {point : Point}
    (covered : inner.Covers edge point) :
    outer.Covers edge point :=
  ⟨le_trans within.1 covered.1, covered.2.trans_le within.2⟩

end Interval

namespace Range

open Sample (positionAt)

/-- No stop of a spaced list is covered unless stops count. -/
theorem Spaced.not_covers_stop
    {intervals : List Interval}
    (spaced : Spaced intervals)
    {interval : Interval}
    (member : interval ∈ intervals) :
    ¬Covers .halfOpen ⟨intervals⟩ interval.stop.toPoint := by
  induction intervals with
  | nil => cases member
  | cons head rest inductionHypothesis =>
      rcases List.mem_cons.mp member with rfl | member
      · exact Range.not_covers_stop spaced
      · have restSpaced := (spaced_cons_iff.mp spaced).2.2
        have inRest : Covers .closed ⟨rest⟩ interval.stop.toPoint :=
          ⟨interval, member, restSpaced.ordered interval member, le_refl _⟩
        have beyond := stop_lt_of_covers_rest spaced inRest
        rw [covers_cons_iff_of_stop_lt beyond]
        exact inductionHypothesis restSpaced member

/-- An interval that a spaced list covers at both edges lies inside one of its
intervals. Otherwise the one that covers its start would stop within it. -/
theorem Spaced.exists_within
    {outers : List Interval}
    (spaced : Spaced outers)
    {inner : Interval}
    (ordered : inner.Ordered)
    (covered : ∀ edge point,
      inner.Covers edge point → Covers edge ⟨outers⟩ point) :
    ∃ outer ∈ outers, inner.Within outer := by
  obtain ⟨outer, member, afterStart, beforeStop⟩ :=
    covered .closed inner.start.toPoint ⟨le_refl _, ordered⟩
  refine ⟨outer, member, afterStart, ?_⟩
  rw [← Std.not_lt]
  intro shorter
  apply spaced.not_covers_stop member
  apply covered
  exact ⟨beforeStop, shorter⟩

section Laws

variable {first second third : Range}
variable (firstCanonical : first.Canonical)

include firstCanonical

theorem Canonical.union_self : first ∪ first ≈ first := by
  apply (firstCanonical.union firstCanonical).equiv_of_covers firstCanonical
  intro edge point
  rw [firstCanonical.covers_union firstCanonical, or_self]

variable (secondCanonical : second.Canonical)

include secondCanonical

theorem Canonical.union_comm : first ∪ second ≈ second ∪ first := by
  apply (firstCanonical.union secondCanonical).equiv_of_covers
    (secondCanonical.union firstCanonical)
  intro edge point
  rw [firstCanonical.covers_union secondCanonical,
    secondCanonical.covers_union firstCanonical, or_comm]

/-- A range that absorbs another one covers all that the other one covers. -/
theorem Canonical.union_equiv_right_iff_covers :
    first ∪ second ≈ second ↔
      ∀ edge point, first.Covers edge point → second.Covers edge point := by
  constructor
  · intro absorbed edge point covered
    rw [← covers_congr absorbed, firstCanonical.covers_union secondCanonical]
    exact Or.inl covered
  · intro included
    apply (firstCanonical.union secondCanonical).equiv_of_covers
      secondCanonical
    intro edge point
    rw [firstCanonical.covers_union secondCanonical,
      or_iff_right_of_imp (included edge point)]

/-- Inclusion can be checked interval by interval. -/
theorem Canonical.union_equiv_right_iff_within :
    first ∪ second ≈ second ↔
      ∀ inner ∈ first.intervals, ∃ outer ∈ second.intervals,
        inner.Within outer := by
  rw [firstCanonical.union_equiv_right_iff_covers secondCanonical]
  constructor
  · intro included inner member
    apply secondCanonical.spaced.exists_within
    · exact firstCanonical.spaced.ordered inner member
    · intro edge point covered
      exact included edge point ⟨inner, member, covered⟩
  · rintro inside edge point ⟨inner, member, covered⟩
    obtain ⟨outer, outerMember, within⟩ := inside inner member
    exact ⟨outer, outerMember, within.covers covered⟩

variable (thirdCanonical : third.Canonical)

include thirdCanonical

theorem Canonical.union_assoc :
    first ∪ (second ∪ third) ≈ first ∪ second ∪ third := by
  have front := firstCanonical.union secondCanonical
  have back := secondCanonical.union thirdCanonical
  apply (firstCanonical.union back).equiv_of_covers
    (front.union thirdCanonical)
  intro edge point
  rw [firstCanonical.covers_union back, front.covers_union thirdCanonical,
    secondCanonical.covers_union thirdCanonical,
    firstCanonical.covers_union secondCanonical, or_assoc]

end Laws

/-- With the union as join, canonical ranges are a semilattice up to
equivalence. The empty range is its least element, and one range is below
another when each interval of the one lies inside an interval of the other. -/
theorem union_is_join
    {first second third : Range}
    (firstCanonical : first.Canonical)
    (secondCanonical : second.Canonical)
    (thirdCanonical : third.Canonical) :
    first ∪ (second ∪ third) ≈ (first ∪ second) ∪ third ∧
    first ∪ second ≈ second ∪ first ∧
    first ∪ first ≈ first ∧
    (∅ ∪ first = first ∧ first ∪ ∅ = first) ∧
    (first ∪ second ≈ second ↔
      ∀ inner ∈ first.intervals, ∃ outer ∈ second.intervals,
        outer.start ≤ inner.start ∧ inner.stop ≤ outer.stop) :=
  ⟨firstCanonical.union_assoc secondCanonical thirdCanonical,
    firstCanonical.union_comm secondCanonical,
    firstCanonical.union_self,
    ⟨empty_union first, union_empty first⟩,
    firstCanonical.union_equiv_right_iff_within secondCanonical⟩

/-- Two separate characters of one file, and an empty interval of another. -/
def scattered : Range :=
  ⟨[⟨positionAt 2, positionAt 3⟩, ⟨positionAt 5, positionAt 6⟩,
    ⟨.origin "g", .origin "g"⟩]⟩

/-- A stretch around each of the scattered intervals. -/
def surrounding : Range :=
  ⟨[⟨positionAt 1, positionAt 3⟩, ⟨positionAt 5, positionAt 8⟩,
    ⟨.origin "g", ⟨⟨"g", 2⟩, 1, 2⟩⟩]⟩

/-- A stretch that touches two others. -/
def bridging : Range :=
  ⟨[⟨positionAt 3, positionAt 5⟩]⟩

/-- Ranges that absorb each other in one direction only, and a third one that
closes a gap. -/
theorem union_is_join_of_surrounding :
    scattered.Canonical ∧ surrounding.Canonical ∧ bridging.Canonical ∧
    scattered ∪ (surrounding ∪ bridging) ≈
      (scattered ∪ surrounding) ∪ bridging ∧
    scattered ∪ surrounding ≈ surrounding ∪ scattered ∧
    scattered ∪ surrounding ≈ surrounding ∧
    ¬surrounding ∪ scattered ≈ scattered := by
  have scatteredCanonical : scattered.Canonical := by decide
  have surroundingCanonical : surrounding.Canonical := by decide
  have bridgingCanonical : bridging.Canonical := by decide
  obtain ⟨assoc, comm, -, -, within⟩ :=
    union_is_join scatteredCanonical surroundingCanonical bridgingCanonical
  obtain ⟨-, -, -, -, notWithin⟩ :=
    union_is_join surroundingCanonical scatteredCanonical bridgingCanonical
  refine ⟨scatteredCanonical, surroundingCanonical, bridgingCanonical,
    assoc, comm, within.mpr (by decide), ?_⟩
  rw [notWithin]
  decide

end Range
end Locus
