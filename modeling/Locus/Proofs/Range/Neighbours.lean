import Locus.Proofs.Range.Files
import Locus.Proofs.Range.TightBound

/-!
# Neighbours and all pairs

A canonical range compares every interval with the next one only. As no
interval starts after it stops, the gaps chain up: every interval stops before
all later ones start. In this form the invariant passes on to subsequences and
to ranges laid end to end with a gap between them, where the sweep has nothing
to merge. Starts and stops are strictly ascending, and no point lies in two of
the intervals.
-/

namespace Locus

namespace Range

open Sample (positionAt)

section Pairs

variable {intervals : List Interval} (spaced : Spaced intervals)

include spaced

/-- Leaving out intervals only widens the gaps. -/
theorem Spaced.sublist
    {selected : List Interval}
    (subsequence : selected.Sublist intervals) :
    Spaced selected where
  ordered interval member :=
    spaced.ordered interval (subsequence.subset member)
  apart := spaced.apart.sublist subsequence

theorem Spaced.pairwise_start :
    (intervals.map Interval.start).Pairwise (· < ·) := by
  rw [List.pairwise_map]
  apply spaced.apart.imp_of_mem
  intro first second firstMember _ gap
  exact gap.start_lt_start (spaced.ordered first firstMember)

theorem Spaced.pairwise_stop :
    (intervals.map Interval.stop).Pairwise (· < ·) := by
  rw [List.pairwise_map]
  apply spaced.apart.imp_of_mem
  intro first second _ secondMember gap
  exact gap.stop_lt_stop (spaced.ordered second secondMember)

/-- The place of the interval that covers a point is unique. -/
theorem Spaced.eq_of_covers
    {edge : Edge}
    {point : Point}
    {first second : Nat}
    {firstInside : first < intervals.length}
    {secondInside : second < intervals.length}
    (inFirst : intervals[first].Covers edge point)
    (inSecond : intervals[second].Covers edge point) :
    first = second := by
  have gaps := List.pairwise_iff_getElem.mp spaced.apart
  rcases lt_trichotomy first second with before | same | after
  · have gap := gaps first second firstInside secondInside before
    exact absurd inSecond (gap.not_covers inFirst)
  · exact same
  · have gap := gaps second first secondInside firstInside after
    exact absurd inFirst (gap.not_covers inSecond)

end Pairs

section Append

variable {fronts backs : List Interval}
variable (gaps : ∀ front ∈ fronts, ∀ back ∈ backs, front.Before back)

include gaps

theorem Spaced.append
    (frontsSpaced : Spaced fronts)
    (backsSpaced : Spaced backs) :
    Spaced (fronts ++ backs) where
  ordered := List.forall_mem_append.mpr
    ⟨frontsSpaced.ordered, backsSpaced.ordered⟩
  apart := List.pairwise_append.mpr
    ⟨frontsSpaced.apart, backsSpaced.apart, gaps⟩

/-- Where the left operand lies before the right one, the sweep passes on the
left one first and finds nothing to merge. -/
theorem sweep_eq_append : sweep fronts backs = fronts ++ backs := by
  induction fronts with
  | nil => rw [sweep_nil_left, List.nil_append]
  | cons front frontRest inductionHypothesis =>
      rw [List.forall_mem_cons] at gaps
      rw [sweep_cons_of_before gaps.1, inductionHypothesis gaps.2,
        List.cons_append]

end Append

/-- A range that stops somewhere has an outer bound that stops there. -/
theorem exists_outer_of_stop
    {range : Range}
    {stop : Position}
    (stopsAt : range.stop? = some stop) :
    ∃ start, range.outer? = some ⟨start, stop⟩ := by
  obtain ⟨intervals⟩ := range
  cases intervals with
  | nil => cases stopsAt
  | cons head rest =>
      refine ⟨head.start, ?_⟩
      rw [outer?, stopsAt]
      rfl

theorem exists_outer_of_start
    {range : Range}
    {start : Position}
    (startsAt : range.start? = some start) :
    ∃ stop, range.outer? = some ⟨start, stop⟩ := by
  obtain ⟨intervals⟩ := range
  cases intervals with
  | nil => cases startsAt
  | cons head rest =>
      cases startsAt
      exact ⟨_, outer_cons head rest⟩

section Canonical

variable {range left right : Range}

/-- It is enough to compare neighbours. -/
theorem canonical_iff_getElem :
    range.Canonical ↔
      (∀ interval ∈ range.intervals, interval.Valid) ∧
        ∀ (first second : Nat)
          (firstInside : first < range.intervals.length)
          (secondInside : second < range.intervals.length),
            first < second →
              range.intervals[first].stop < range.intervals[second].start := by
  constructor
  · intro canonical
    exact ⟨canonical.1, List.pairwise_iff_getElem.mp canonical.spaced.apart⟩
  · rintro ⟨valid, gaps⟩
    exact canonical_iff_spaced.mpr ⟨valid, ordered_of_valid valid,
      List.pairwise_iff_getElem.mpr gaps⟩

theorem Canonical.sublist
    (canonical : range.Canonical)
    {selected : List Interval}
    (subsequence : selected.Sublist range.intervals) :
    (Range.mk selected).Canonical := by
  refine canonical_iff_spaced.mpr ⟨?_, canonical.spaced.sublist subsequence⟩
  intro interval member
  exact canonical.1 interval (subsequence.subset member)

variable (leftCanonical : left.Canonical) (rightCanonical : right.Canonical)
variable {stop start : Position}
variable (stopsAt : left.stop? = some stop)
variable (startsAt : right.start? = some start)
variable (gap : stop < start)

include leftCanonical rightCanonical stopsAt startsAt gap

/-- A gap between two ranges is a gap between any two of their intervals. -/
theorem Canonical.before_of_stop_lt_start :
    ∀ front ∈ left.intervals, ∀ back ∈ right.intervals,
      front.Before back := by
  obtain ⟨_, leftBounded⟩ := exists_outer_of_stop stopsAt
  obtain ⟨_, rightBounded⟩ := exists_outer_of_start startsAt
  have leftTight := leftCanonical.spaced.tightBound_outer leftBounded
  have rightTight := rightCanonical.spaced.tightBound_outer rightBounded
  intro front frontMember back backMember
  calc
    front.stop ≤ stop := (leftTight.contains front frontMember).2
    _ < start := gap
    _ ≤ back.start := (rightTight.contains back backMember).1

theorem Canonical.append :
    (Range.mk (left.intervals ++ right.intervals)).Canonical := by
  have gaps := leftCanonical.before_of_stop_lt_start rightCanonical stopsAt
    startsAt gap
  exact canonical_iff_spaced.mpr
    ⟨List.forall_mem_append.mpr ⟨leftCanonical.1, rightCanonical.1⟩,
      Spaced.append gaps leftCanonical.spaced rightCanonical.spaced⟩

theorem Canonical.union_eq_append :
    left ∪ right = ⟨left.intervals ++ right.intervals⟩ :=
  congrArg mk (sweep_eq_append
    (leftCanonical.before_of_stop_lt_start rightCanonical stopsAt startsAt gap))

end Canonical

/-- Neighbours are enough. A range is canonical exactly when its intervals are
valid and every one of them stops before all later ones start. So a subsequence
of a canonical range is canonical, no point lies in two of the intervals even if
stops count, and starts and stops are strictly ascending. Canonical ranges with
a gap between them can be laid end to end: this is canonical, and it is their
union in lines and columns too. -/
theorem gaps_between_neighbours_suffice :
    (∀ range : Range, range.Canonical ↔
      (∀ interval ∈ range.intervals, interval.Valid) ∧
        ∀ (first second : Nat)
          (firstInside : first < range.intervals.length)
          (secondInside : second < range.intervals.length),
            first < second →
              range.intervals[first].stop < range.intervals[second].start) ∧
    (∀ range : Range, range.Canonical →
      (∀ selected : List Interval, selected.Sublist range.intervals →
        (Range.mk selected).Canonical) ∧
      (∀ (point : Point) (first second : Nat)
        (firstInside : first < range.intervals.length)
        (secondInside : second < range.intervals.length),
          range.intervals[first].Covers .closed point →
            range.intervals[second].Covers .closed point →
              first = second) ∧
      (range.intervals.map Interval.start).Pairwise (· < ·) ∧
      (range.intervals.map Interval.stop).Pairwise (· < ·)) ∧
    (∀ (left right : Range) (stop start : Position),
      left.Canonical → right.Canonical →
        left.stop? = some stop → right.start? = some start → stop < start →
          (Range.mk (left.intervals ++ right.intervals)).Canonical ∧
          left ∪ right = ⟨left.intervals ++ right.intervals⟩) := by
  refine ⟨fun _ => canonical_iff_getElem, ?_, ?_⟩
  · intro range canonical
    have spaced := canonical.spaced
    exact ⟨fun _ => canonical.sublist, fun _ _ _ _ _ => spaced.eq_of_covers,
      spaced.pairwise_start, spaced.pairwise_stop⟩
  · intro left right stop start leftCanonical rightCanonical stopsAt startsAt
      gap
    exact ⟨leftCanonical.append rightCanonical stopsAt startsAt gap,
      leftCanonical.union_eq_append rightCanonical stopsAt startsAt gap⟩

/-- A word, and a point behind it. -/
def wordAndPoint : Range :=
  ⟨[⟨positionAt 1, positionAt 3⟩, ⟨positionAt 5, positionAt 5⟩]⟩

/-- A stretch over a line break, and an empty interval of another file. -/
def breakAndFile : Range :=
  ⟨[⟨positionAt 8, positionAt 12⟩, ⟨.origin "g", .origin "g"⟩]⟩

/-- All four of these intervals. -/
def laidOut : Range :=
  ⟨wordAndPoint.intervals ++ breakAndFile.intervals⟩

/-- The two ranges laid end to end are their union. The first and the last
interval make up a canonical range as well, and the point is covered only by the
interval it makes up. -/
theorem gaps_between_neighbours_suffice_of_laidOut :
    wordAndPoint.Canonical ∧ breakAndFile.Canonical ∧
    wordAndPoint.stop? = some (positionAt 5) ∧
    breakAndFile.start? = some (positionAt 8) ∧
    positionAt 5 < positionAt 8 ∧
    laidOut.Canonical ∧ wordAndPoint ∪ breakAndFile = laidOut ∧
    (Range.mk [⟨positionAt 1, positionAt 3⟩,
      ⟨.origin "g", .origin "g"⟩]).Canonical ∧
    [positionAt 1, positionAt 5, positionAt 8, .origin "g"].Pairwise (· < ·) ∧
    [positionAt 3, positionAt 5, positionAt 12, .origin "g"].Pairwise (· < ·) ∧
    ∀ (place : Nat) (inside : place < laidOut.intervals.length),
      laidOut.intervals[place].Covers .closed (positionAt 5).toPoint →
        place = 1 := by
  obtain ⟨-, ofCanonical, ofApart⟩ := gaps_between_neighbours_suffice
  obtain ⟨laidCanonical, united⟩ := ofApart wordAndPoint breakAndFile
    (positionAt 5) (positionAt 8) (by decide) (by decide) rfl rfl (by decide)
  obtain ⟨ofSelection, unique, starts, stops⟩ :=
    ofCanonical laidOut laidCanonical
  refine ⟨by decide, by decide, rfl, rfl, by decide, laidCanonical, united,
    ofSelection _ (by decide), starts, stops, ?_⟩
  intro place inside covered
  exact unique (positionAt 5).toPoint place 1 inside (by decide) covered
    (by decide)

end Range

end Locus
