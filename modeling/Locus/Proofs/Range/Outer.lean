import Locus.Proofs.Range.Normal
import Locus.Proofs.Range.Transport
import Mathlib.Data.List.Induction

/-!
# Outer bounds of unions

The outer bound of spaced intervals is their join from left to right, where the
ends at a gap are never tied. Joining is associative down to which of several
tied ends is kept, and the two sides of a gap may be exchanged. The sweep only
regroups its intervals and moves one of them across a gap, so the outer bound of
a union is the hull of the outer bounds, in lines and columns too.
-/

namespace Locus
namespace Range

open Sample (positionAt)

/-- The join of two bounds, either of which may be missing. -/
def joinBounds : Option Interval → Option Interval → Option Interval :=
  Option.merge Interval.join

theorem joinBounds_assoc (first second third : Option Interval) :
    joinBounds (joinBounds first second) third =
      joinBounds first (joinBounds second third) :=
  (Option.associative_merge Interval.join).assoc first second third

theorem some_hull_eq_joinBounds
    {left right : Interval}
    (leftOrdered : left.Ordered)
    (rightOrdered : right.Ordered) :
    some (left.hull right) = joinBounds (some left) (some right) :=
  congrArg some (Interval.hull_eq_join leftOrdered rightOrdered)

section Spaced

variable {head : Interval} {rest : List Interval}

/-- The first of several spaced intervals starts before the others and stops
before the last of them. -/
theorem Spaced.outer?_cons (spaced : Spaced (head :: rest)) :
    outer? ⟨head :: rest⟩ = joinBounds (some head) (outer? ⟨rest⟩) := by
  obtain ⟨headOrdered, gaps, restSpaced⟩ := spaced_cons_iff.mp spaced
  cases rest with
  | nil => rfl
  | cons next rest =>
      let last := (next :: rest).getLast (List.cons_ne_nil next rest)
      have lastMember : last ∈ next :: rest := List.getLast_mem _
      have startsFirst : head.start ≤ next.start :=
        le_trans headOrdered (le_of_lt (gaps next (by simp)))
      have stopsFirst : head.stop ≤ last.stop :=
        le_trans (le_of_lt (gaps last lastMember))
          (restSpaced.ordered last lastMember)
      rw [outer_cons, outer_cons, List.getLast_cons (by simp)]
      exact congrArg some (congrArg₂ Interval.mk
        (Position.earlier_of_le startsFirst).symm
        (Position.later_of_le stopsFirst).symm)

/-- An interval before spaced ones may be joined with their bound from either
side. -/
theorem Spaced.joinBounds_comm
    {interval : Interval}
    (spaced : Spaced rest)
    (ordered : interval.Ordered)
    (gaps : ∀ later ∈ rest, interval.Before later) :
    joinBounds (some interval) (outer? ⟨rest⟩) =
      joinBounds (outer? ⟨rest⟩) (some interval) := by
  cases bounded : outer? ⟨rest⟩ with
  | none => rfl
  | some bound =>
      have boundOrdered := spaced.ordered_of_outer bounded
      cases rest with
      | nil => cases bounded
      | cons next rest =>
          rw [outer_cons] at bounded
          cases bounded
          have gap : interval.Before next := gaps next (by simp)
          exact congrArg some (Interval.Before.join_comm gap ordered boundOrdered)

end Spaced

/-- The bound of a sweep is the join of the bounds. -/
theorem outer?_sweep
    {lefts rights : List Interval}
    (leftsSpaced : Spaced lefts)
    (rightsSpaced : Spaced rights) :
    outer? ⟨sweep lefts rights⟩ =
      joinBounds (outer? ⟨lefts⟩) (outer? ⟨rights⟩) := by
  have swept := spaced_sweep leftsSpaced rightsSpaced
  fun_induction sweep lefts rights with
  | case1 rights => exact (Option.merge_none_left).symm
  | case2 left leftRest => exact (Option.merge_none_right).symm
  | case3 left leftRest right rightRest before inductionHypothesis =>
      obtain ⟨-, -, leftRestSpaced⟩ := spaced_cons_iff.mp leftsSpaced
      have rest := inductionHypothesis leftRestSpaced rightsSpaced
        (spaced_cons_iff.mp swept).2.2
      rw [swept.outer?_cons, rest, leftsSpaced.outer?_cons, joinBounds_assoc]
  | case4 left leftRest right rightRest notBefore after
      inductionHypothesis =>
      obtain ⟨rightOrdered, -, rightRestSpaced⟩ :=
        spaced_cons_iff.mp rightsSpaced
      have rest := inductionHypothesis leftsSpaced rightRestSpaced
        (spaced_cons_iff.mp swept).2.2
      have moved := leftsSpaced.joinBounds_comm rightOrdered
        (leftsSpaced.before_all after)
      rw [swept.outer?_cons, rest, rightsSpaced.outer?_cons,
        ← joinBounds_assoc, moved, joinBounds_assoc]
  | case5 left leftRest right rightRest notBefore notAfter shorter
      inductionHypothesis =>
      obtain ⟨leftOrdered, leftGaps, leftRestSpaced⟩ :=
        spaced_cons_iff.mp leftsSpaced
      obtain ⟨rightOrdered, -, -⟩ := spaced_cons_iff.mp rightsSpaced
      have mergedSpaced := rightsSpaced.hull_of_shorter leftsSpaced shorter
      have merged := some_hull_eq_joinBounds leftOrdered rightOrdered
      -- The rest of the left operand lies behind a gap, so the left interval
      -- may be moved across it to the right one.
      have moved := leftRestSpaced.joinBounds_comm leftOrdered leftGaps
      rw [inductionHypothesis leftRestSpaced mergedSpaced swept,
        mergedSpaced.outer?_cons, merged, leftsSpaced.outer?_cons,
        rightsSpaced.outer?_cons, moved]
      simp only [joinBounds_assoc]
  | case6 left leftRest right rightRest notBefore notAfter notShorter
      inductionHypothesis =>
      obtain ⟨leftOrdered, leftGaps, leftRestSpaced⟩ :=
        spaced_cons_iff.mp leftsSpaced
      obtain ⟨rightOrdered, -, rightRestSpaced⟩ :=
        spaced_cons_iff.mp rightsSpaced
      have mergedSpaced := leftsSpaced.hull_of_notShorter rightsSpaced notShorter
      have merged := some_hull_eq_joinBounds leftOrdered rightOrdered
      have rightGaps : ∀ later ∈ leftRest, right.Before later := by
        intro later member
        exact lt_of_le_of_lt (Std.not_lt.mp notShorter) (leftGaps later member)
      have moved := leftRestSpaced.joinBounds_comm rightOrdered rightGaps
      rw [inductionHypothesis mergedSpaced rightRestSpaced swept,
        mergedSpaced.outer?_cons, merged, joinBounds_assoc (some left), moved,
        leftsSpaced.outer?_cons, rightsSpaced.outer?_cons]
      simp only [joinBounds_assoc]

section Union

variable {left right : Range}
variable (leftCanonical : left.Canonical) (rightCanonical : right.Canonical)

include leftCanonical rightCanonical

/-- The bound of a union is the hull of the bounds. -/
theorem Canonical.outer?_union
    {leftBound rightBound : Interval}
    (leftBounded : left.outer? = some leftBound)
    (rightBounded : right.outer? = some rightBound) :
    (left ∪ right).outer? = some (leftBound.hull rightBound) := by
  have leftOrdered := leftCanonical.spaced.ordered_of_outer leftBounded
  have rightOrdered := rightCanonical.spaced.ordered_of_outer rightBounded
  have joined : (left ∪ right).outer? =
      joinBounds left.outer? right.outer? :=
    outer?_sweep leftCanonical.spaced rightCanonical.spaced
  rw [joined, leftBounded, rightBounded,
    some_hull_eq_joinBounds leftOrdered rightOrdered]

end Union

/-- A range that is not empty has a bound. -/
theorem exists_outer_of_ne_empty {range : Range} (nonempty : range ≠ ∅) :
    ∃ bound, range.outer? = some bound := by
  obtain ⟨intervals⟩ := range
  cases intervals with
  | nil => exact absurd rfl nonempty
  | cons head rest => exact ⟨_, outer_cons head rest⟩

/-- Equivalent ranges have equivalent bounds. -/
theorem exists_outer_of_equiv
    {range other : Range}
    (equivalent : range ≈ other)
    {bound : Interval}
    (bounded : range.outer? = some bound) :
    ∃ otherBound, other.outer? = some otherBound ∧ bound ≈ otherBound := by
  have related := outer?_congr equivalent
  rw [bounded] at related
  cases otherBounded : other.outer? with
  | none =>
      rw [otherBounded] at related
      cases related
  | some otherBound =>
      rw [otherBounded] at related
      cases related with
      | some sameBound => exact ⟨otherBound, rfl, sameBound⟩

/-- The bound of a normal form is the hull of all its intervals, taken one by
one. -/
theorem outer?_ofIntervals_cons
    {head : Interval}
    {rest : List Interval}
    (valid : ∀ interval ∈ head :: rest, interval.Valid) :
    ∃ bound, (ofIntervals (head :: rest)).outer? = some bound ∧
      bound ≈ rest.foldl Interval.hull head := by
  induction rest using List.reverseRecOn with
  | nil =>
      rw [ofIntervals_singleton]
      exact ⟨head, rfl, Setoid.refl head⟩
  | append_singleton front last inductionHypothesis =>
      rw [← List.cons_append, List.forall_mem_append] at valid
      obtain ⟨frontBound, frontBounded, frontFolded⟩ :=
        inductionHypothesis valid.1
      have lastBounded : (ofIntervals [last]).outer? = some last := by
        rw [ofIntervals_singleton, outer?_toRange]
      have united := (canonical_ofIntervals valid.1).outer?_union
        (canonical_ofIntervals valid.2) frontBounded lastBounded
      obtain ⟨bound, bounded, equivalent⟩ := exists_outer_of_equiv
        (union_ofIntervals_equiv valid.1 valid.2) united
      rw [← List.cons_append, List.foldl_append]
      refine ⟨bound, bounded, ?_⟩
      exact Setoid.trans (Setoid.symm equivalent)
        (Interval.hull_congr frontFolded (Setoid.refl last))

/-- The outer bound of a union is the hull of the outer bounds, in lines and
columns too, and where one range is empty it is the bound of the other one. So
the outer bound of a normal form is the hull of its intervals, one by one. -/
theorem outer_union_is_hull :
    (∀ left right : Range, left.Canonical → right.Canonical →
      (left ≠ ∅ → right ≠ ∅ → ∃ leftBound rightBound,
        left.outer? = some leftBound ∧ right.outer? = some rightBound ∧
          (left ∪ right).outer? = some (leftBound.hull rightBound)) ∧
      (left = ∅ → (left ∪ right).outer? = right.outer?) ∧
      (right = ∅ → (left ∪ right).outer? = left.outer?)) ∧
    (∀ (head : Interval) (rest : List Interval),
      (∀ interval ∈ head :: rest, interval.Valid) →
        ∃ bound, (ofIntervals (head :: rest)).outer? = some bound ∧
          bound ≈ rest.foldl Interval.hull head) := by
  constructor
  · intro left right leftCanonical rightCanonical
    refine ⟨?_, ?_, ?_⟩
    · intro leftNonempty rightNonempty
      obtain ⟨leftBound, leftBounded⟩ := exists_outer_of_ne_empty leftNonempty
      obtain ⟨rightBound, rightBounded⟩ :=
        exists_outer_of_ne_empty rightNonempty
      exact ⟨leftBound, rightBound, leftBounded, rightBounded,
        leftCanonical.outer?_union rightCanonical leftBounded rightBounded⟩
    · rintro rfl
      rw [empty_union]
    · rintro rfl
      rw [union_empty]
  · intro head rest
    exact outer?_ofIntervals_cons

/-- Two characters in a text, and the point at which the next line starts. -/
def twoLined : Range :=
  ⟨[⟨positionAt 11, positionAt 13⟩, ⟨positionAt 21, positionAt 21⟩]⟩

/-- Two stretches between the same points, where the text has no line breaks. -/
def oneLined : Range :=
  ⟨[⟨unbrokenAt 11, unbrokenAt 12⟩, ⟨unbrokenAt 14, unbrokenAt 21⟩]⟩

/-- Of tied starts the left one is kept and of tied stops the right one. The
bound of the intervals in reverse has the same points. -/
theorem outer_union_is_hull_of_tied :
    twoLined.Canonical ∧ oneLined.Canonical ∧
    twoLined ≠ ∅ ∧ oneLined ≠ ∅ ∧
    (twoLined ∪ oneLined).outer? =
      some ⟨positionAt 11, unbrokenAt 21⟩ ∧
    (twoLined ∪ ∅).outer? = some ⟨positionAt 11, positionAt 21⟩ ∧
    (∀ interval ∈ oneLined.intervals.reverse, interval.Valid) ∧
    ∃ bound, (ofIntervals oneLined.intervals.reverse).outer? = some bound ∧
      bound ≈ ⟨positionAt 11, positionAt 21⟩ := by
  obtain ⟨ofRanges, ofLists⟩ := outer_union_is_hull
  obtain ⟨ofNonempty, -, -⟩ := ofRanges twoLined oneLined (by decide)
    (by decide)
  obtain ⟨-, -, ofRightEmpty⟩ := ofRanges twoLined ∅ (by decide) (by decide)
  obtain ⟨leftBound, rightBound, leftBounded, rightBounded, united⟩ :=
    ofNonempty (by decide) (by decide)
  cases leftBounded
  cases rightBounded
  obtain ⟨bound, found, folded⟩ := ofLists _ _
    (show ∀ interval ∈ oneLined.intervals.reverse, interval.Valid by decide)
  refine ⟨by decide, by decide, by decide, by decide, united, ofRightEmpty rfl,
    by decide, bound, found, ?_⟩
  exact Setoid.trans folded (by decide)

end Range
end Locus
