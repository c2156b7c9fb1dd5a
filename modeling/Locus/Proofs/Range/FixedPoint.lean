import Locus.Proofs.Range.Equivalence
import Locus.Proofs.Range.Normal

/-!
# Fixed points of the normal form

Spaced intervals are sorted already and no two of them meet, so neither sorting
nor merging changes them. Canonical ranges are therefore their own normal form,
in lines and columns too, and since every normal form of valid intervals is
canonical, no other ranges of valid intervals are.
-/

namespace Locus

namespace Range

open Sample (positionAt)

variable {intervals : List Interval}

/-- Spaced intervals are in ascending order. -/
theorem Spaced.ascending_eq (spaced : Spaced intervals) :
    ascending intervals = intervals := by
  apply ascending_of_pairwise
  apply spaced.apart.imp_of_mem
  intro first second firstMember secondMember gap
  exact gap.le (spaced.ordered first firstMember)
    (spaced.ordered second secondMember)

/-- Across gaps nothing is merged. -/
theorem Spaced.coalesce_eq
    {pending : Interval}
    {rest : List Interval}
    (spaced : Spaced (pending :: rest)) :
    coalesce pending rest = pending :: rest := by
  induction rest generalizing pending with
  | nil => rfl
  | cons next rest inductionHypothesis =>
      obtain ⟨-, gaps, restSpaced⟩ := spaced_cons_iff.mp spaced
      have gap : pending.stop < next.start := gaps next (by simp)
      rw [coalesce, if_pos gap, inductionHypothesis restSpaced]

theorem Spaced.ofIntervals_eq (spaced : Spaced intervals) :
    ofIntervals intervals = ⟨intervals⟩ := by
  rw [ofIntervals, spaced.ascending_eq]
  cases intervals with
  | nil => rfl
  | cons pending rest => rw [joinNeighbours, spaced.coalesce_eq]

/-- A canonical range is its own normal form. -/
theorem Canonical.ofIntervals_eq
    {range : Range}
    (canonical : range.Canonical) :
    ofIntervals range.intervals = range :=
  canonical.spaced.ofIntervals_eq

/-- A range of valid intervals that is equivalent to its normal form is
canonical. -/
theorem ofIntervals_equiv_self_iff
    {range : Range}
    (valid : ∀ interval ∈ range.intervals, interval.Valid) :
    ofIntervals range.intervals ≈ range ↔ range.Canonical := by
  constructor
  · intro fixed
    exact (canonical_ofIntervals valid).of_equiv valid (Setoid.symm fixed)
  · intro canonical
    rewrite [canonical.ofIntervals_eq]
    exact Setoid.refl range

/-- The normal form normalises. For valid intervals it is canonical, covers
what the intervals cover, whether stops count or not, and does not depend on
their order or on repetitions. Of the ranges of valid intervals it fixes the
canonical ones and no others, so normalising twice is normalising once. -/
theorem ofIntervals_normalises :
    (∀ intervals : List Interval, (∀ interval ∈ intervals, interval.Valid) →
      (ofIntervals intervals).Canonical ∧
      (∀ edge point, (ofIntervals intervals).Covers edge point ↔
        ∃ interval ∈ intervals, interval.Covers edge point) ∧
      (∀ others : List Interval,
        (∀ interval, interval ∈ others ↔ interval ∈ intervals) →
          ofIntervals others ≈ ofIntervals intervals) ∧
      ofIntervals (ofIntervals intervals).intervals =
        ofIntervals intervals) ∧
    (∀ range : Range, (∀ interval ∈ range.intervals, interval.Valid) →
      (ofIntervals range.intervals ≈ range ↔ range.Canonical) ∧
      (range.Canonical → ofIntervals range.intervals = range)) := by
  constructor
  · intro intervals valid
    have canonical := canonical_ofIntervals valid
    refine ⟨canonical, covers_ofIntervals (ordered_of_valid valid), ?_,
      canonical.ofIntervals_eq⟩
    intro others
    exact ofIntervals_equiv_of_mem_iff valid
  · intro range valid
    exact ⟨ofIntervals_equiv_self_iff valid, Canonical.ofIntervals_eq⟩

/-- Nested, touching and equal intervals, and an empty one. -/
def tangled : List Interval :=
  [⟨positionAt 4, positionAt 6⟩, ⟨positionAt 1, positionAt 8⟩,
    ⟨positionAt 8, positionAt 9⟩, ⟨positionAt 4, positionAt 6⟩,
    ⟨positionAt 11, positionAt 11⟩]

/-- The same without the repetition and in reverse. -/
def untangled : List Interval :=
  [⟨positionAt 11, positionAt 11⟩, ⟨positionAt 8, positionAt 9⟩,
    ⟨positionAt 1, positionAt 8⟩, ⟨positionAt 4, positionAt 6⟩]

/-- Intervals in disorder, which are no canonical range, and the canonical
range of the two that remain of them. -/
theorem ofIntervals_normalises_of_tangled :
    (∀ interval ∈ tangled, interval.Valid) ∧
    (ofIntervals tangled).Canonical ∧
    ofIntervals untangled ≈ ofIntervals tangled ∧
    (ofIntervals tangled).Covers .closed (positionAt 11).toPoint ∧
    ¬(ofIntervals tangled).Covers .halfOpen (positionAt 11).toPoint ∧
    ¬ofIntervals tangled ≈ ⟨tangled⟩ ∧
    ofIntervals [⟨positionAt 1, positionAt 9⟩, ⟨positionAt 11, positionAt 11⟩] =
      ⟨[⟨positionAt 1, positionAt 9⟩, ⟨positionAt 11, positionAt 11⟩]⟩ := by
  have valid : ∀ interval ∈ tangled, interval.Valid := by decide
  obtain ⟨ofLists, ofRanges⟩ := ofIntervals_normalises
  obtain ⟨canonical, covers, unaffected, -⟩ := ofLists tangled valid
  have sameMembers :
      ∀ interval, interval ∈ untangled ↔ interval ∈ tangled := by
    intro interval
    simp only [tangled, untangled, List.mem_cons, List.not_mem_nil]
    tauto
  refine ⟨valid, canonical, unaffected untangled sameMembers, ?_, ?_, ?_, ?_⟩
  · rw [covers]
    decide
  · rw [covers]
    decide
  · rw [(ofRanges ⟨tangled⟩ valid).1]
    decide
  · exact (ofRanges ⟨_⟩ (by decide)).2 (by decide)

end Range
end Locus
