import Locus.Proofs.Interval.Hull

/-!
# Canonical ranges and what they cover

Canonical ranges check only neighbours, but the gaps between neighbours are
gaps between all of their intervals. A list of intervals with such gaps is
determined by the points it covers: the closed cover shows where its intervals
start and the half-open cover shows where they stop.
-/

namespace Locus
namespace Range

/-- A point is covered by one of the intervals. -/
def Covers (edge : Edge) (range : Range) (point : Point) : Prop :=
  ∃ interval ∈ range.intervals, interval.Covers edge point

instance (edge : Edge) (range : Range) (point : Point) :
    Decidable (range.Covers edge point) :=
  inferInstanceAs (Decidable (∃ interval ∈ range.intervals, _))

@[simp] theorem not_covers_empty (edge : Edge) (point : Point) :
    ¬(∅ : Range).Covers edge point := by
  simp [Covers]

theorem covers_cons_iff
    {edge : Edge}
    {point : Point}
    (interval : Interval)
    (rest : List Interval) :
    Covers edge ⟨interval :: rest⟩ point ↔
      interval.Covers edge point ∨ Covers edge ⟨rest⟩ point :=
  List.exists_mem_cons_iff _ _ _

/-- Ordered intervals with a gap between any two of them. -/
structure Spaced (intervals : List Interval) : Prop where
  /-- No interval starts after it stops. -/
  ordered : ∀ interval ∈ intervals, interval.Ordered
  /-- Every interval stops before all later ones start. -/
  apart : intervals.Pairwise Interval.Before

theorem spaced_nil : Spaced [] :=
  ⟨by simp, .nil⟩

theorem spaced_cons_iff {interval : Interval} {rest : List Interval} :
    Spaced (interval :: rest) ↔
      interval.Ordered ∧ (∀ later ∈ rest, interval.Before later) ∧
        Spaced rest := by
  constructor
  · rintro ⟨ordered, apart⟩
    rw [List.forall_mem_cons] at ordered
    rw [List.pairwise_cons] at apart
    exact ⟨ordered.1, apart.1, ordered.2, apart.2⟩
  · rintro ⟨intervalOrdered, gap, restOrdered, restApart⟩
    exact ⟨List.forall_mem_cons.mpr ⟨intervalOrdered, restOrdered⟩,
      List.pairwise_cons.mpr ⟨gap, restApart⟩⟩

/-- A gap before the first interval is a gap before all of them. -/
theorem Spaced.before_all
    {interval head : Interval}
    {rest : List Interval}
    (spaced : Spaced (head :: rest))
    (gap : interval.Before head) :
    ∀ later ∈ head :: rest, interval.Before later := by
  obtain ⟨headOrdered, gaps, -⟩ := spaced_cons_iff.mp spaced
  refine List.forall_mem_cons.mpr ⟨gap, ?_⟩
  intro later member
  exact .trans headOrdered gap (gaps later member)

/-- The first interval may be replaced by one that stops no later. -/
theorem Spaced.replace_head
    {interval head : Interval}
    {rest : List Interval}
    (spaced : Spaced (head :: rest))
    (ordered : interval.Ordered)
    (notLater : interval.stop ≤ head.stop) :
    Spaced (interval :: rest) := by
  obtain ⟨-, gaps, restSpaced⟩ := spaced_cons_iff.mp spaced
  refine spaced_cons_iff.mpr ⟨ordered, ?_, restSpaced⟩
  intro later member
  exact lt_of_le_of_lt notLater (gaps later member)

/-- For ordered intervals the gaps between neighbours are gaps between all. -/
theorem separated_iff_pairwise
    {intervals : List Interval}
    (ordered : ∀ interval ∈ intervals, interval.Ordered) :
    Separated intervals ↔ intervals.Pairwise Interval.Before := by
  induction intervals with
  | nil => simp [Separated]
  | cons interval rest inductionHypothesis =>
      cases rest with
      | nil => simp [Separated]
      | cons next rest =>
          rw [List.forall_mem_cons] at ordered
          have nextOrdered : next.Ordered := ordered.2 next (by simp)
          rw [Separated, inductionHypothesis ordered.2,
            List.pairwise_cons (a := interval)]
          constructor
          · rintro ⟨gap, apart⟩
            refine ⟨?_, apart⟩
            intro later member
            rcases List.mem_cons.mp member with rfl | member
            · exact gap
            · exact Interval.Before.trans nextOrdered gap
                (List.rel_of_pairwise_cons apart member)
          · rintro ⟨gaps, apart⟩
            exact ⟨gaps next (by simp), apart⟩

theorem ordered_of_valid
    {intervals : List Interval}
    (valid : ∀ interval ∈ intervals, interval.Valid) :
    ∀ interval ∈ intervals, interval.Ordered := by
  intro interval member
  exact (valid interval member).ordered

theorem canonical_iff_spaced {range : Range} :
    range.Canonical ↔
      (∀ interval ∈ range.intervals, interval.Valid) ∧
        Spaced range.intervals := by
  constructor
  · rintro ⟨valid, separated⟩
    have ordered := ordered_of_valid valid
    exact ⟨valid, ordered, (separated_iff_pairwise ordered).mp separated⟩
  · rintro ⟨valid, spaced⟩
    exact ⟨valid, (separated_iff_pairwise spaced.ordered).mpr spaced.apart⟩

theorem Canonical.spaced {range : Range} (canonical : range.Canonical) :
    Spaced range.intervals :=
  (canonical_iff_spaced.mp canonical).2

section Head

variable {head : Interval} {rest : List Interval}
variable {edge : Edge} {point : Point}

/-- Nothing before the first start is covered. -/
theorem start_le_of_covers
    (spaced : Spaced (head :: rest))
    (covers : Covers edge ⟨head :: rest⟩ point) :
    head.start.toPoint ≤ point := by
  obtain ⟨headOrdered, gaps, -⟩ := spaced_cons_iff.mp spaced
  obtain ⟨interval, member, afterStart, -⟩ := covers
  rcases List.mem_cons.mp member with rfl | member
  · exact afterStart
  · have gap : head.stop.toPoint < interval.start.toPoint :=
      gaps interval member
    exact le_trans headOrdered (le_trans (le_of_lt gap) afterStart)

theorem start_le_stop_of_mem
    (spaced : Spaced (head :: rest))
    {last : Interval}
    (member : last ∈ head :: rest) :
    head.start ≤ last.stop := by
  have covered : Covers .closed ⟨head :: rest⟩ last.stop.toPoint :=
    ⟨last, member, spaced.ordered last member, le_refl _⟩
  exact start_le_of_covers spaced covered

theorem outer_cons (head : Interval) (rest : List Interval) :
    outer? ⟨head :: rest⟩ =
      some ⟨head.start,
        ((head :: rest).getLast (List.cons_ne_nil head rest)).stop⟩ := by
  rw [outer?, start?, stop?,
    List.getLast?_eq_some_getLast (List.cons_ne_nil head rest)]
  rfl

/-- The outer bound of spaced intervals is in order. -/
theorem Spaced.ordered_of_outer
    {intervals : List Interval}
    (spaced : Spaced intervals)
    {bound : Interval}
    (bounded : outer? ⟨intervals⟩ = some bound) :
    bound.Ordered := by
  cases intervals with
  | nil => cases bounded
  | cons head rest =>
      have lastMember := List.getLast_mem (List.cons_ne_nil head rest)
      have ordered := start_le_stop_of_mem spaced lastMember
      rw [outer_cons] at bounded
      cases bounded
      exact ordered

/-- The later intervals cover only points beyond the first stop. -/
theorem stop_lt_of_covers_rest
    (spaced : Spaced (head :: rest))
    (covers : Covers edge ⟨rest⟩ point) :
    head.stop.toPoint < point := by
  obtain ⟨-, gaps, -⟩ := spaced_cons_iff.mp spaced
  obtain ⟨interval, member, afterStart, -⟩ := covers
  have gap : head.stop.toPoint < interval.start.toPoint :=
    gaps interval member
  exact lt_of_lt_of_le gap afterStart

/-- The first stop itself is outside the half-open cover. -/
theorem not_covers_stop (spaced : Spaced (head :: rest)) :
    ¬Covers .halfOpen ⟨head :: rest⟩ head.stop.toPoint := by
  rintro ⟨interval, member, covered⟩
  rcases List.mem_cons.mp member with rfl | member
  · exact lt_irrefl _ covered.2
  · exact lt_irrefl _
      (stop_lt_of_covers_rest spaced ⟨interval, member, covered⟩)

/-- Beyond the first stop only the later intervals count. -/
theorem covers_cons_iff_of_stop_lt (beyond : head.stop.toPoint < point) :
    Covers edge ⟨head :: rest⟩ point ↔ Covers edge ⟨rest⟩ point := by
  rw [covers_cons_iff, or_iff_right]
  intro covered
  exact absurd covered.2.le (not_le_of_gt beyond)

end Head

section Determined

variable {head other : Interval} {rest otherRest : List Interval}

/-- A list that covers at least as much does not start later. -/
theorem start_le_start
    (spaced : Spaced (head :: rest))
    (otherOrdered : other.Ordered)
    (covers : ∀ point,
      Covers .closed ⟨other :: otherRest⟩ point →
        Covers .closed ⟨head :: rest⟩ point) :
    head.start ≤ other.start := by
  refine start_le_of_covers spaced (covers other.start.toPoint ?_)
  exact ⟨other, by simp, le_refl _, otherOrdered⟩

/-- Of two lists that start together, the one that covers at least as much
does not have the lesser first stop: it would leave that stop uncovered. -/
theorem stop_le_stop
    (spaced : Spaced (head :: rest))
    (startsFirst : other.start ≤ head.start)
    (covers : ∀ point,
      Covers .halfOpen ⟨other :: otherRest⟩ point →
        Covers .halfOpen ⟨head :: rest⟩ point) :
    other.stop ≤ head.stop := by
  have headOrdered := (spaced_cons_iff.mp spaced).1
  rw [← Std.not_lt]
  intro shorter
  apply not_covers_stop spaced
  apply covers
  exact ⟨other, by simp, le_trans startsFirst headOrdered, shorter⟩

/-- The cover of the later intervals can be read off the cover of all. -/
theorem covers_rest_of_covers
    (spaced : Spaced (head :: rest))
    (sameStop : head.stop ≈ other.stop)
    {edge : Edge}
    (covers : ∀ point,
      Covers edge ⟨head :: rest⟩ point →
        Covers edge ⟨other :: otherRest⟩ point)
    (point : Point)
    (covered : Covers edge ⟨rest⟩ point) :
    Covers edge ⟨otherRest⟩ point := by
  have beyond := stop_lt_of_covers_rest spaced covered
  rw [Position.equiv_iff] at sameStop
  rw [← covers_cons_iff_of_stop_lt (sameStop ▸ beyond)]
  apply covers
  rwa [covers_cons_iff_of_stop_lt beyond]

end Determined

/-- Spaced intervals are determined by what they cover. -/
theorem forall₂_equiv_of_covers
    {firsts seconds : List Interval}
    (firstsSpaced : Spaced firsts)
    (secondsSpaced : Spaced seconds)
    (same : ∀ edge point,
      Covers edge ⟨firsts⟩ point ↔ Covers edge ⟨seconds⟩ point) :
    List.Forall₂ (· ≈ ·) firsts seconds := by
  induction firsts generalizing seconds with
  | nil =>
      cases seconds with
      | nil => exact .nil
      | cons second secondRest =>
          have secondOrdered := (spaced_cons_iff.mp secondsSpaced).1
          have covered : Covers .closed ⟨[]⟩ second.start.toPoint :=
            (same _ _).mpr ⟨second, by simp, le_refl _, secondOrdered⟩
          exact absurd covered (not_covers_empty _ _)
  | cons first firstRest inductionHypothesis =>
      obtain ⟨firstOrdered, -, firstRestSpaced⟩ :=
        spaced_cons_iff.mp firstsSpaced
      cases seconds with
      | nil =>
          have covered : Covers .closed ⟨[]⟩ first.start.toPoint :=
            (same _ _).mp ⟨first, by simp, le_refl _, firstOrdered⟩
          exact absurd covered (not_covers_empty _ _)
      | cons second secondRest =>
          obtain ⟨secondOrdered, -, secondRestSpaced⟩ :=
            spaced_cons_iff.mp secondsSpaced
          have forth := fun edge point => (same edge point).mp
          have back := fun edge point => (same edge point).mpr
          have sameStart : first.start ≈ second.start := by
            rw [Position.equiv_iff_le_and_le]
            exact ⟨start_le_start firstsSpaced secondOrdered (back _),
              start_le_start secondsSpaced firstOrdered (forth _)⟩
          have startsOrdered := Position.equiv_iff_le_and_le.mp sameStart
          have sameStop : first.stop ≈ second.stop := by
            rw [Position.equiv_iff_le_and_le]
            exact ⟨stop_le_stop secondsSpaced startsOrdered.1 (forth _),
              stop_le_stop firstsSpaced startsOrdered.2 (back _)⟩
          refine .cons (Interval.equiv_iff.mpr ⟨sameStart, sameStop⟩) ?_
          apply inductionHypothesis firstRestSpaced secondRestSpaced
          intro edge point
          exact ⟨covers_rest_of_covers firstsSpaced sameStop (forth edge) point,
            covers_rest_of_covers secondsSpaced (Setoid.symm sameStop)
              (back edge) point⟩

/-- Canonical ranges that cover the same points are equivalent. -/
theorem Canonical.equiv_of_covers
    {first second : Range}
    (firstCanonical : first.Canonical)
    (secondCanonical : second.Canonical)
    (same : ∀ edge point,
      first.Covers edge point ↔ second.Covers edge point) :
    first ≈ second :=
  equiv_iff.mpr
    (forall₂_equiv_of_covers firstCanonical.spaced secondCanonical.spaced same)

/-- Equivalent ranges are equal if tied ends of theirs are equal. -/
theorem eq_of_equiv_of_endsIn
    {pool : Position → Prop}
    (agree : ∀ first second, pool first → pool second →
      first ≈ second → first = second)
    {first second : Range}
    (firstEnds : ∀ interval ∈ first.intervals, interval.EndsIn pool)
    (secondEnds : ∀ interval ∈ second.intervals, interval.EndsIn pool)
    (equivalent : first ≈ second) :
    first = second := by
  obtain ⟨firsts⟩ := first
  obtain ⟨seconds⟩ := second
  rw [equiv_iff] at equivalent
  refine congrArg mk ?_
  change List.Forall₂ (· ≈ ·) firsts seconds at equivalent
  induction equivalent with
  | nil => rfl
  | cons sameInterval _ inductionHypothesis =>
      rw [List.forall_mem_cons] at firstEnds secondEnds
      obtain ⟨sameStart, sameStop⟩ := Interval.equiv_iff.mp sameInterval
      have startEqual := agree _ _ firstEnds.1.1 secondEnds.1.1 sameStart
      have stopEqual := agree _ _ firstEnds.1.2 secondEnds.1.2 sameStop
      exact congrArg₂ List.cons
        (congrArg₂ Interval.mk startEqual stopEqual)
        (inductionHypothesis firstEnds.2 secondEnds.2)

end Range
end Locus
