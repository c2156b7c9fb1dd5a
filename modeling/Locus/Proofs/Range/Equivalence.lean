import Locus.Proofs.Range.Cover
import Locus.Sample

/-!
# Equivalence and cover

Equivalent ranges have the same end points, one by one, and whatever is said
of end points only holds of both: the order of the ends, the gaps, the cover.
For canonical ranges the cover says it all. Both edges are needed for that,
since an interval without characters covers nothing but its own stop, and a
gap of a single offset has no point between its two stops.
-/

namespace Locus

namespace Interval

/-- The points an interval runs between, without lines and columns. -/
def points (interval : Interval) : Point × Point :=
  (interval.start.toPoint, interval.stop.toPoint)

theorem equiv_iff_points {first second : Interval} :
    first ≈ second ↔ first.points = second.points := by
  rw [equiv_iff, Position.equiv_iff, Position.equiv_iff, points, points,
    Prod.mk.injEq]

end Interval

namespace Range

open Sample (positionAt)

variable {first second : Range}

theorem equiv_iff_points :
    first ≈ second ↔
      first.intervals.map Interval.points =
        second.intervals.map Interval.points := by
  simp only [equiv_iff, Interval.equiv_iff_points]
  rw [← List.forall₂_eq_eq_eq, List.forall₂_map_left_iff,
    List.forall₂_map_right_iff]

theorem covers_iff_points {edge : Edge} {point : Point} :
    first.Covers edge point ↔
      ∃ ends ∈ first.intervals.map Interval.points,
        ends.1 ≤ point ∧ edge.Admits point ends.2 := by
  simp only [List.mem_map, exists_exists_and_eq_and]
  exact Iff.rfl

theorem spaced_iff_points {intervals : List Interval} :
    Spaced intervals ↔
      (∀ ends ∈ intervals.map Interval.points, ends.1 ≤ ends.2) ∧
        (intervals.map Interval.points).Pairwise fun front back =>
          front.2 < back.1 := by
  rw [List.forall_mem_map, List.pairwise_map]
  constructor
  · rintro ⟨ordered, apart⟩
    exact ⟨ordered, apart⟩
  · rintro ⟨ordered, apart⟩
    exact ⟨ordered, apart⟩

/-- Equivalent ranges cover the same points. -/
theorem covers_congr
    (equivalent : first ≈ second)
    (edge : Edge)
    (point : Point) :
    first.Covers edge point ↔ second.Covers edge point := by
  rw [covers_iff_points, covers_iff_points, equiv_iff_points.mp equivalent]

/-- A range of valid intervals that is equivalent to a canonical one is
canonical. -/
theorem Canonical.of_equiv
    (secondCanonical : second.Canonical)
    (valid : ∀ interval ∈ first.intervals, interval.Valid)
    (equivalent : first ≈ second) :
    first.Canonical := by
  refine canonical_iff_spaced.mpr ⟨valid, ?_⟩
  rw [spaced_iff_points, equiv_iff_points.mp equivalent, ← spaced_iff_points]
  exact secondCanonical.spaced

/-- A canonical range is determined by what it covers. If two of them cover
the same points with their stops, and the same points without, then they have
equally many intervals, and these run between the same points. -/
theorem canonical_determined_by_cover
    (firstCanonical : first.Canonical)
    (secondCanonical : second.Canonical)
    (sameClosed : ∀ point,
      first.Covers .closed point ↔ second.Covers .closed point)
    (sameHalfOpen : ∀ point,
      first.Covers .halfOpen point ↔ second.Covers .halfOpen point) :
    first ≈ second ∧
      first.intervals.map Interval.points =
        second.intervals.map Interval.points := by
  have equivalent : first ≈ second := by
    apply firstCanonical.equiv_of_covers secondCanonical
    intro edge point
    cases edge with
    | closed => exact sameClosed point
    | halfOpen => exact sameHalfOpen point
  exact ⟨equivalent, equiv_iff_points.mp equivalent⟩

/-- Two characters, an empty interval behind a gap of one offset, and an empty
interval of another file. -/
def gapped : Range :=
  ⟨[⟨positionAt 9, positionAt 11⟩, ⟨positionAt 12, positionAt 12⟩,
    ⟨.origin "g", .origin "g"⟩]⟩

/-- The same stretches, had the text but one line. -/
def gappedOnOneLine : Range :=
  ⟨[⟨⟨⟨"file name", 9⟩, 1, 9⟩, ⟨⟨"file name", 11⟩, 1, 11⟩⟩,
    ⟨⟨⟨"file name", 12⟩, 1, 12⟩, ⟨⟨"file name", 12⟩, 1, 12⟩⟩,
    ⟨.origin "g", .origin "g"⟩]⟩

/-- The position at an offset of the sample text, had the text but one line. -/
def unbrokenAt (offset : Int) : Position where
  file := Sample.file
  offset := offset
  line := 1
  column := offset

/-- Ranges that differ in lines and columns, but not in what they cover. -/
theorem canonical_determined_by_cover_of_gapped :
    gapped.Canonical ∧ gappedOnOneLine.Canonical ∧
    (∀ point, gapped.Covers .closed point ↔
      gappedOnOneLine.Covers .closed point) ∧
    (∀ point, gapped.Covers .halfOpen point ↔
      gappedOnOneLine.Covers .halfOpen point) ∧
    gapped ≠ gappedOnOneLine ∧ gapped ≈ gappedOnOneLine := by
  have same : ∀ edge point, gapped.Covers edge point ↔
      gappedOnOneLine.Covers edge point := by
    intro edge point
    simp only [gapped, gappedOnOneLine, covers_cons_iff]
    exact Iff.rfl
  refine ⟨by decide, by decide, same .closed, same .halfOpen, by decide, ?_⟩
  exact (canonical_determined_by_cover (by decide) (by decide)
    (same .closed) (same .halfOpen)).1

end Range
end Locus
