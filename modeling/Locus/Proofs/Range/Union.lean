import Locus.Proofs.Range.Offsets
import Locus.Range.Union
import Locus.Sample

/-!
# The union covers what its operands cover

Every step of the sweep either passes on an interval that lies before all
others or replaces two intervals that meet by their hull. What holds of all
intervals and is kept by such hulls therefore holds of the result, and as hulls
cover neither more nor less, so does the union. For spaced operands the passed
intervals lie before the rest, so the result is spaced again.
-/

namespace Locus
namespace Range

open Sample (positionAt)

variable {lefts rights : List Interval}

/-- What holds of both operands and is kept by the hull of intervals that meet
holds of the result. -/
theorem forall_sweep
    {Holds : Interval → Prop}
    (keeps : ∀ {left right : Interval},
      Holds left → Holds right → left.Meets right →
        Holds (left.hull right))
    (leftsHold : ∀ interval ∈ lefts, Holds interval)
    (rightsHold : ∀ interval ∈ rights, Holds interval) :
    ∀ interval ∈ sweep lefts rights, Holds interval := by
  fun_induction sweep lefts rights with
  | case1 rights => exact rightsHold
  | case2 left leftRest => exact leftsHold
  | case3 left leftRest right rightRest before inductionHypothesis =>
      rw [List.forall_mem_cons] at leftsHold ⊢
      exact ⟨leftsHold.1, inductionHypothesis leftsHold.2 rightsHold⟩
  | case4 left leftRest right rightRest notBefore after
      inductionHypothesis =>
      rw [List.forall_mem_cons] at rightsHold ⊢
      exact ⟨rightsHold.1, inductionHypothesis leftsHold rightsHold.2⟩
  | case5 left leftRest right rightRest notBefore notAfter shorter
      inductionHypothesis =>
      rw [List.forall_mem_cons] at leftsHold rightsHold
      have merged := keeps leftsHold.1 rightsHold.1
        (Interval.meets_of_not_before notBefore notAfter)
      apply inductionHypothesis leftsHold.2
      exact List.forall_mem_cons.mpr ⟨merged, rightsHold.2⟩
  | case6 left leftRest right rightRest notBefore notAfter notShorter
      inductionHypothesis =>
      rw [List.forall_mem_cons] at leftsHold rightsHold
      have merged := keeps leftsHold.1 rightsHold.1
        (Interval.meets_of_not_before notBefore notAfter)
      refine inductionHypothesis ?_ rightsHold.2
      exact List.forall_mem_cons.mpr ⟨merged, leftsHold.2⟩

/-- The same for what is kept by the hull of ordered intervals. -/
theorem forall_sweep_of_ordered
    {Holds : Interval → Prop}
    (keeps : ∀ {left right : Interval}, left.Ordered → right.Ordered →
      left.Meets right → Holds left → Holds right →
        Holds (left.hull right))
    (leftsOrdered : ∀ interval ∈ lefts, interval.Ordered)
    (rightsOrdered : ∀ interval ∈ rights, interval.Ordered)
    (leftsHold : ∀ interval ∈ lefts, Holds interval)
    (rightsHold : ∀ interval ∈ rights, Holds interval) :
    ∀ interval ∈ sweep lefts rights, Holds interval := by
  have both : ∀ interval ∈ sweep lefts rights,
      interval.Ordered ∧ Holds interval := by
    apply forall_sweep
    · intro left right leftHolds rightHolds meets
      exact ⟨Interval.ordered_hull left right,
        keeps leftHolds.1 rightHolds.1 meets leftHolds.2 rightHolds.2⟩
    · intro left member
      exact ⟨leftsOrdered left member, leftsHold left member⟩
    · intro right member
      exact ⟨rightsOrdered right member, rightsHold right member⟩
  intro interval member
  exact (both interval member).2

theorem valid_sweep
    (leftsValid : ∀ interval ∈ lefts, interval.Valid)
    (rightsValid : ∀ interval ∈ rights, interval.Valid) :
    ∀ interval ∈ sweep lefts rights, interval.Valid :=
  forall_sweep (fun left right _ => Interval.valid_hull left right)
    leftsValid rightsValid

theorem endsIn_sweep
    {pool : Position → Prop}
    (leftsOrdered : ∀ interval ∈ lefts, interval.Ordered)
    (rightsOrdered : ∀ interval ∈ rights, interval.Ordered) :
    (∀ interval ∈ lefts, interval.EndsIn pool) →
      (∀ interval ∈ rights, interval.EndsIn pool) →
        ∀ interval ∈ sweep lefts rights, interval.EndsIn pool :=
  forall_sweep_of_ordered
    (fun leftOrdered rightOrdered _ =>
      Interval.endsIn_hull leftOrdered rightOrdered)
    leftsOrdered rightsOrdered

theorem inOneFile_sweep
    (leftsOrdered : ∀ interval ∈ lefts, interval.Ordered)
    (rightsOrdered : ∀ interval ∈ rights, interval.Ordered) :
    (∀ interval ∈ lefts, interval.InOneFile) →
      (∀ interval ∈ rights, interval.InOneFile) →
        ∀ interval ∈ sweep lefts rights, interval.InOneFile :=
  forall_sweep_of_ordered Interval.inOneFile_hull leftsOrdered rightsOrdered

/-- The sweep covers exactly what its operands cover. -/
theorem covers_sweep
    (leftsOrdered : ∀ interval ∈ lefts, interval.Ordered)
    (rightsOrdered : ∀ interval ∈ rights, interval.Ordered)
    (edge : Edge)
    (point : Point) :
    Covers edge ⟨sweep lefts rights⟩ point ↔
      Covers edge ⟨lefts⟩ point ∨ Covers edge ⟨rights⟩ point := by
  fun_induction sweep lefts rights with
  | case1 rights => simp [Covers]
  | case2 left leftRest => simp [Covers]
  | case3 left leftRest right rightRest before inductionHypothesis =>
      have restOrdered := (List.forall_mem_cons.mp leftsOrdered).2
      have rest := inductionHypothesis restOrdered rightsOrdered
      rw [covers_cons_iff, rest, covers_cons_iff left leftRest, or_assoc]
  | case4 left leftRest right rightRest notBefore after
      inductionHypothesis =>
      have restOrdered := (List.forall_mem_cons.mp rightsOrdered).2
      have rest := inductionHypothesis leftsOrdered restOrdered
      rw [covers_cons_iff, rest, covers_cons_iff right rightRest,
        or_left_comm]
  | case5 left leftRest right rightRest notBefore notAfter shorter
      inductionHypothesis =>
      rw [List.forall_mem_cons] at leftsOrdered rightsOrdered
      have merged := Interval.covers_hull leftsOrdered.1 rightsOrdered.1
        (Interval.meets_of_not_before notBefore notAfter) edge point
      have rest := inductionHypothesis leftsOrdered.2
        (List.forall_mem_cons.mpr
          ⟨Interval.ordered_hull left right, rightsOrdered.2⟩)
      rw [rest, covers_cons_iff, merged, covers_cons_iff left leftRest,
        covers_cons_iff right rightRest, or_assoc, or_assoc, or_left_comm]
  | case6 left leftRest right rightRest notBefore notAfter notShorter
      inductionHypothesis =>
      rw [List.forall_mem_cons] at leftsOrdered rightsOrdered
      have merged := Interval.covers_hull leftsOrdered.1 rightsOrdered.1
        (Interval.meets_of_not_before notBefore notAfter) edge point
      have rest := inductionHypothesis
        (List.forall_mem_cons.mpr
          ⟨Interval.ordered_hull left right, leftsOrdered.2⟩)
        rightsOrdered.2
      rw [rest, covers_cons_iff, merged, covers_cons_iff left leftRest,
        covers_cons_iff right rightRest, or_assoc, or_or_or_comm]

section Heads

variable {left right : Interval} {leftRest rightRest : List Interval}

/-- A hull may take the place of the interval that stops later. -/
theorem Spaced.hull_of_shorter
    (rightsSpaced : Spaced (right :: rightRest))
    (leftsSpaced : Spaced (left :: leftRest))
    (shorter : left.stop < right.stop) :
    Spaced (left.hull right :: rightRest) :=
  rightsSpaced.replace_head (Interval.ordered_hull left right)
    (Interval.stop_hull_le (leftsSpaced.ordered left (by simp))
      (rightsSpaced.ordered right (by simp)) (le_of_lt shorter) (le_refl _))

theorem Spaced.hull_of_notShorter
    (leftsSpaced : Spaced (left :: leftRest))
    (rightsSpaced : Spaced (right :: rightRest))
    (notShorter : ¬left.stop < right.stop) :
    Spaced (left.hull right :: leftRest) :=
  leftsSpaced.replace_head (Interval.ordered_hull left right)
    (Interval.stop_hull_le (leftsSpaced.ordered left (by simp))
      (rightsSpaced.ordered right (by simp)) (le_refl _)
      (Std.not_lt.mp notShorter))

end Heads

/-- An interval before all others stays before all that the sweep makes of
them. -/
theorem before_sweep
    {interval : Interval}
    (leftsSpaced : Spaced lefts)
    (rightsSpaced : Spaced rights) :
    (∀ left ∈ lefts, interval.Before left) →
      (∀ right ∈ rights, interval.Before right) →
        ∀ later ∈ sweep lefts rights, interval.Before later :=
  forall_sweep_of_ordered
    (fun leftOrdered rightOrdered _ =>
      Interval.before_hull leftOrdered rightOrdered)
    leftsSpaced.ordered rightsSpaced.ordered

/-- The sweep of spaced lists is spaced. -/
theorem spaced_sweep
    (leftsSpaced : Spaced lefts)
    (rightsSpaced : Spaced rights) :
    Spaced (sweep lefts rights) := by
  fun_induction sweep lefts rights with
  | case1 rights => exact rightsSpaced
  | case2 left leftRest => exact leftsSpaced
  | case3 left leftRest right rightRest before inductionHypothesis =>
      obtain ⟨leftOrdered, leftGaps, restSpaced⟩ :=
        spaced_cons_iff.mp leftsSpaced
      exact spaced_cons_iff.mpr ⟨leftOrdered,
        before_sweep restSpaced rightsSpaced leftGaps
          (rightsSpaced.before_all before),
        inductionHypothesis restSpaced rightsSpaced⟩
  | case4 left leftRest right rightRest notBefore after
      inductionHypothesis =>
      obtain ⟨rightOrdered, rightGaps, restSpaced⟩ :=
        spaced_cons_iff.mp rightsSpaced
      exact spaced_cons_iff.mpr ⟨rightOrdered,
        before_sweep leftsSpaced restSpaced (leftsSpaced.before_all after)
          rightGaps,
        inductionHypothesis leftsSpaced restSpaced⟩
  | case5 left leftRest right rightRest notBefore notAfter shorter
      inductionHypothesis =>
      apply inductionHypothesis (spaced_cons_iff.mp leftsSpaced).2.2
      exact rightsSpaced.hull_of_shorter leftsSpaced shorter
  | case6 left leftRest right rightRest notBefore notAfter notShorter
      inductionHypothesis =>
      refine inductionHypothesis ?_ (spaced_cons_iff.mp rightsSpaced).2.2
      exact leftsSpaced.hull_of_notShorter rightsSpaced notShorter

section Union

variable {left right : Range}

theorem Canonical.union
    (leftCanonical : left.Canonical)
    (rightCanonical : right.Canonical) :
    (left ∪ right).Canonical := by
  rw [canonical_iff_spaced] at *
  exact ⟨valid_sweep leftCanonical.1 rightCanonical.1,
    spaced_sweep leftCanonical.2 rightCanonical.2⟩

theorem Canonical.covers_union
    (leftCanonical : left.Canonical)
    (rightCanonical : right.Canonical)
    (edge : Edge)
    (point : Point) :
    (left ∪ right).Covers edge point ↔
      left.Covers edge point ∨ right.Covers edge point :=
  covers_sweep leftCanonical.spaced.ordered rightCanonical.spaced.ordered
    edge point

/-- For intervals in one file each, uniting ranges unites their offsets. -/
theorem offsets_union
    (leftOrdered : ∀ interval ∈ left.intervals, interval.Ordered)
    (rightOrdered : ∀ interval ∈ right.intervals, interval.Ordered)
    (leftInOneFile : ∀ interval ∈ left.intervals, interval.InOneFile)
    (rightInOneFile : ∀ interval ∈ right.intervals, interval.InOneFile) :
    (left ∪ right).offsets = left.offsets ∪ right.offsets := by
  have unionInOneFile :
      ∀ interval ∈ (left ∪ right).intervals, interval.InOneFile :=
    inOneFile_sweep leftOrdered rightOrdered leftInOneFile rightInOneFile
  ext offset
  rw [OffsetSet.mem_union, mem_offsets_iff_covers unionInOneFile,
    mem_offsets_iff_covers leftInOneFile,
    mem_offsets_iff_covers rightInOneFile, ← exists_or]
  exact exists_congr fun file =>
    covers_sweep leftOrdered rightOrdered .closed ⟨file, offset⟩

end Union

/-- The union is exact and canonical. It covers the points that one of its
operands covers, whether stops count or not, even when the operands are out of
order or overlap. It is canonical when its operands are. When every interval
lies in one file, its offsets are those of its operands. -/
theorem union_exact (left right : Range) :
    ((∀ interval ∈ left.intervals ++ right.intervals, interval.Ordered) →
      ∀ edge point, (left ∪ right).Covers edge point ↔
        left.Covers edge point ∨ right.Covers edge point) ∧
    (left.Canonical → right.Canonical → (left ∪ right).Canonical) ∧
    ((∀ interval ∈ left.intervals ++ right.intervals,
        interval.Ordered ∧ interval.InOneFile) →
      (left ∪ right).offsets = left.offsets ∪ right.offsets) := by
  simp only [List.forall_mem_append, forall₂_and]
  refine ⟨?_, Canonical.union, ?_⟩
  · rintro ⟨leftOrdered, rightOrdered⟩
    exact covers_sweep leftOrdered rightOrdered
  · rintro ⟨⟨leftOrdered, leftInOneFile⟩, rightOrdered, rightInOneFile⟩
    exact offsets_union leftOrdered rightOrdered leftInOneFile rightInOneFile

/-- Two characters, and an empty interval of another file. -/
def touchingFront : Range :=
  ⟨[⟨positionAt 1, positionAt 3⟩, ⟨.origin "g", .origin "g"⟩]⟩

/-- The four characters behind the two. -/
def touchingBack : Range :=
  ⟨[⟨positionAt 3, positionAt 7⟩]⟩

/-- Touching intervals of one file, beside an empty interval of another. -/
theorem union_exact_of_touching :
    (∀ interval ∈ touchingFront.intervals ++ touchingBack.intervals,
      interval.Ordered ∧ interval.InOneFile) ∧
    touchingFront.Canonical ∧ touchingBack.Canonical ∧
    (touchingFront ∪ touchingBack).Canonical ∧
    (touchingFront ∪ touchingBack).offsets =
      touchingFront.offsets ∪ touchingBack.offsets ∧
    ¬(touchingFront ∪ touchingBack).Covers .halfOpen
      (positionAt 7).toPoint := by
  obtain ⟨covers, canonical, offsets⟩ :=
    union_exact touchingFront touchingBack
  refine ⟨by decide, by decide, by decide,
    canonical (by decide) (by decide), offsets (by decide), ?_⟩
  rw [covers (by decide)]
  decide

end Range
end Locus
