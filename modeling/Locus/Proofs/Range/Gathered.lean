import Locus.Proofs.Range.Normal

/-!
# Unions of many ranges

A union of many ranges takes two of them at a time, under some grouping.
Grouping does not matter: the union of canonical ranges is canonical and covers
what all of them cover, so it is the normal form of their intervals.
-/

namespace Locus
namespace Range

/-- A range is the union of a list of ranges under some grouping. -/
inductive Gathered : List Range → Range → Prop
  /-- Nothing is gathered. -/
  | nothing : Gathered [] ∅
  /-- A single range is its own union. -/
  | single (range : Range) : Gathered [range] range
  /-- Two groups are gathered, and then their unions. -/
  | both
      {fronts backs : List Range}
      {front back : Range}
      (gatheredFronts : Gathered fronts front)
      (gatheredBacks : Gathered backs back) :
      Gathered (fronts ++ backs) (front ∪ back)

namespace Gathered

variable {parts : List Range} {range : Range}

theorem canonical
    (gathered : Gathered parts range)
    (canonicalParts : ∀ part ∈ parts, part.Canonical) :
    range.Canonical := by
  induction gathered with
  | nothing => exact canonical_empty
  | single part => exact canonicalParts part (by simp)
  | both _ _ frontHypothesis backHypothesis =>
      rw [List.forall_mem_append] at canonicalParts
      exact (frontHypothesis canonicalParts.1).union
        (backHypothesis canonicalParts.2)

theorem covers_iff
    (gathered : Gathered parts range)
    (canonicalParts : ∀ part ∈ parts, part.Canonical)
    (edge : Edge)
    (point : Point) :
    range.Covers edge point ↔
      Covers edge ⟨parts.flatMap intervals⟩ point := by
  induction gathered with
  | nothing => exact Iff.rfl
  | single part => rw [List.flatMap_singleton]
  | both gatheredFronts gatheredBacks frontHypothesis backHypothesis =>
      rw [List.forall_mem_append] at canonicalParts
      rw [(gatheredFronts.canonical canonicalParts.1).covers_union
          (gatheredBacks.canonical canonicalParts.2),
        frontHypothesis canonicalParts.1, backHypothesis canonicalParts.2,
        List.flatMap_append, covers_append_iff]

theorem equiv_ofIntervals
    (gathered : Gathered parts range)
    (canonicalParts : ∀ part ∈ parts, part.Canonical) :
    range ≈ ofIntervals (parts.flatMap intervals) := by
  apply (gathered.canonical canonicalParts).equiv_ofIntervals
  · rw [List.forall_mem_flatMap]
    intro part member
    exact (canonicalParts part member).1
  · exact gathered.covers_iff canonicalParts

end Gathered

/-- The normal form does not depend on the order of the intervals. -/
theorem ofIntervals_equiv_of_perm
    {firsts seconds : List Interval}
    (valid : ∀ interval ∈ firsts, interval.Valid)
    (permuted : firsts.Perm seconds) :
    ofIntervals firsts ≈ ofIntervals seconds :=
  Setoid.symm (ofIntervals_equiv_of_mem_iff valid
    fun _ => permuted.symm.mem_iff)

end Range
end Locus
