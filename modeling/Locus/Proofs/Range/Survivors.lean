import Locus.Proofs.Range.Semilattice
import Mathlib.Data.List.Pairwise

/-!
# Which ends survive a union

The intervals of a union are put together from the intervals of the operands
that lie inside them. Where operands disagree on line and column of a point, a
start is taken from the left operand and a stop from the right one. A tie can
only arise when two intervals are merged for the first time: the gaps of both
operands keep all later intervals away from the ends that are settled.
-/

namespace Locus

namespace Interval

variable {left right outer : Interval}

theorem Within.refl (interval : Interval) : interval.Within interval :=
  ⟨le_refl _, le_refl _⟩

theorem Within.trans
    {inner middle : Interval}
    (front : inner.Within middle)
    (back : middle.Within outer) :
    inner.Within outer :=
  ⟨le_trans back.1 front.1, le_trans front.2 back.2⟩

section Ordered

variable (leftOrdered : left.Ordered) (rightOrdered : right.Ordered)

include leftOrdered rightOrdered

theorem within_hull_left : left.Within (left.hull right) := by
  rw [hull_eq_join leftOrdered rightOrdered]
  exact ⟨Position.earlier_le_left _ _, Position.le_later_left _ _⟩

theorem within_hull_right : right.Within (left.hull right) := by
  rw [hull_eq_join leftOrdered rightOrdered]
  exact ⟨Position.earlier_le_right _ _, Position.le_later_right _ _⟩

theorem start_hull_eq_left_of_equiv
    (tied : (left.hull right).start ≈ left.start) :
    (left.hull right).start = left.start := by
  rw [hull_eq_join leftOrdered rightOrdered] at tied ⊢
  exact Position.earlier_eq_left_of_equiv tied

theorem stop_hull_eq_right_of_equiv
    (tied : (left.hull right).stop ≈ right.stop) :
    (left.hull right).stop = right.stop := by
  rw [hull_eq_join leftOrdered rightOrdered] at tied ⊢
  exact Position.later_eq_right_of_equiv tied

end Ordered

end Interval

namespace Range

open Sample (positionAt)

section Members

variable {intervals : List Interval} {first second : Interval}
variable (spaced : Spaced intervals)
variable (firstMember : first ∈ intervals) (secondMember : second ∈ intervals)

include spaced firstMember secondMember

/-- No two spaced intervals meet. -/
theorem Spaced.eq_of_meets (meets : first.Meets second) : first = second := by
  have apart : intervals.Pairwise fun first second =>
      ¬first.Meets second := by
    apply spaced.apart.imp
    intro first second gap meets
    exact Std.not_lt.mpr meets.2 gap
  have symmetric : Std.Symm fun first second : Interval =>
      ¬first.Meets second :=
    ⟨fun _ _ separate meets => separate meets.symm⟩
  by_contra different
  exact apart.forall firstMember secondMember different meets

/-- An interval lies inside at most one of several spaced intervals. -/
theorem Spaced.eq_of_within
    {inner : Interval}
    (ordered : inner.Ordered)
    (inFirst : inner.Within first)
    (inSecond : inner.Within second) :
    first = second :=
  spaced.eq_of_meets firstMember secondMember
    ⟨le_trans inFirst.1 (le_trans ordered inSecond.2),
      le_trans inSecond.1 (le_trans ordered inFirst.2)⟩

theorem Spaced.eq_of_start_equiv
    (tied : first.start ≈ second.start) :
    first = second :=
  spaced.eq_of_meets firstMember secondMember
    (Interval.meets_of_start_equiv (spaced.ordered first firstMember)
      (spaced.ordered second secondMember) tied)

theorem Spaced.eq_of_stop_equiv
    (tied : first.stop ≈ second.stop) :
    first = second :=
  spaced.eq_of_meets firstMember secondMember
    (Interval.meets_of_stop_equiv (spaced.ordered first firstMember)
      (spaced.ordered second secondMember) tied)

end Members

section Sweep

variable {lefts rights : List Interval}
variable (leftsSpaced : Spaced lefts) (rightsSpaced : Spaced rights)

include leftsSpaced rightsSpaced

/-- Every interval of the operands lies inside exactly one of the result. -/
theorem existsUnique_within_sweep :
    ∀ inner ∈ lefts ++ rights,
      ∃! outer, outer ∈ sweep lefts rights ∧ inner.Within outer := by
  intro inner member
  have ordered : inner.Ordered :=
    List.forall_mem_append.mpr ⟨leftsSpaced.ordered, rightsSpaced.ordered⟩
      inner member
  have spaced := spaced_sweep leftsSpaced rightsSpaced
  have covered : ∀ edge point, inner.Covers edge point →
      Covers edge ⟨sweep lefts rights⟩ point := by
    intro edge point covered
    rw [covers_sweep leftsSpaced.ordered rightsSpaced.ordered]
    rcases List.mem_append.mp member with inLefts | inRights
    · exact Or.inl ⟨inner, inLefts, covered⟩
    · exact Or.inr ⟨inner, inRights, covered⟩
  obtain ⟨outer, outerMember, within⟩ := spaced.exists_within ordered covered
  refine ⟨outer, ⟨outerMember, within⟩, ?_⟩
  rintro other ⟨otherMember, otherWithin⟩
  exact spaced.eq_of_within otherMember outerMember ordered otherWithin within

/-- An end that every hull takes from one of its two intervals is taken from an
interval inside. -/
theorem exists_within_of_mem_sweep
    {side : Interval → Position}
    (picks : ∀ {left right : Interval}, left.Ordered → right.Ordered →
      side (left.hull right) = side left ∨
        side (left.hull right) = side right) :
    ∀ outer ∈ sweep lefts rights, ∃ inner ∈ lefts ++ rights,
      inner.Within outer ∧ side outer = side inner := by
  refine forall_sweep_of_ordered ?_ leftsSpaced.ordered rightsSpaced.ordered
    ?_ ?_
  · rintro left right leftOrdered rightOrdered -
      ⟨leftInner, leftMember, inLeft, leftEqual⟩
      ⟨rightInner, rightMember, inRight, rightEqual⟩
    rcases picks leftOrdered rightOrdered with equal | equal
    · have within := Interval.within_hull_left leftOrdered rightOrdered
      exact ⟨leftInner, leftMember, inLeft.trans within,
        equal.trans leftEqual⟩
    · have within := Interval.within_hull_right leftOrdered rightOrdered
      exact ⟨rightInner, rightMember, inRight.trans within,
        equal.trans rightEqual⟩
  · intro left member
    exact ⟨left, List.mem_append_left _ member, .refl left, rfl⟩
  · intro right member
    exact ⟨right, List.mem_append_right _ member, .refl right, rfl⟩

theorem exists_start_of_mem_sweep :
    ∀ outer ∈ sweep lefts rights, ∃ inner ∈ lefts ++ rights,
      inner.Within outer ∧ outer.start = inner.start :=
  exists_within_of_mem_sweep leftsSpaced rightsSpaced Interval.start_hull_eq_or

theorem exists_stop_of_mem_sweep :
    ∀ outer ∈ sweep lefts rights, ∃ inner ∈ lefts ++ rights,
      inner.Within outer ∧ outer.stop = inner.stop :=
  exists_within_of_mem_sweep leftsSpaced rightsSpaced Interval.stop_hull_eq_or

end Sweep

section Merged

variable {left right source : Interval} {leftRest rightRest : List Interval}
variable (leftsSpaced : Spaced (left :: leftRest))
variable (rightsSpaced : Spaced (right :: rightRest))
variable (member : source ∈ left.hull right :: (leftRest ++ rightRest))

include leftsSpaced rightsSpaced member

/-- Once the first intervals are merged, only their hull can start where the
left one does, and then it has taken over the start of the left one. -/
theorem start_eq_of_merged
    (meets : left.Meets right)
    (tied : source.start ≈ left.start) :
    source.start = left.start := by
  obtain ⟨leftOrdered, leftGaps, -⟩ := spaced_cons_iff.mp leftsSpaced
  obtain ⟨rightOrdered, rightGaps, -⟩ := spaced_cons_iff.mp rightsSpaced
  have notLater : ¬left.start < source.start :=
    Position.not_lt_of_equiv (Setoid.symm tied)
  simp only [List.mem_cons, List.mem_append] at member
  rcases member with rfl | inLeftRest | inRightRest
  · exact Interval.start_hull_eq_left_of_equiv leftOrdered rightOrdered tied
  · exact absurd (lt_of_le_of_lt leftOrdered (leftGaps source inLeftRest))
      notLater
  · exact absurd (lt_of_le_of_lt meets.1 (rightGaps source inRightRest))
      notLater

/-- The same for stops, when the right interval does not stop after the left
one. -/
theorem stop_eq_of_merged
    (notShorter : ¬left.stop < right.stop)
    (tied : source.stop ≈ right.stop) :
    source.stop = right.stop := by
  obtain ⟨leftOrdered, leftGaps, leftRestSpaced⟩ :=
    spaced_cons_iff.mp leftsSpaced
  obtain ⟨rightOrdered, rightGaps, rightRestSpaced⟩ :=
    spaced_cons_iff.mp rightsSpaced
  have notLater : ¬right.stop < source.stop :=
    Position.not_lt_of_equiv (Setoid.symm tied)
  simp only [List.mem_cons, List.mem_append] at member
  rcases member with rfl | inLeftRest | inRightRest
  · exact Interval.stop_hull_eq_right_of_equiv leftOrdered rightOrdered tied
  · refine absurd ?_ notLater
    calc
      right.stop ≤ left.stop := Std.not_lt.mp notShorter
      _ < source.start := leftGaps source inLeftRest
      _ ≤ source.stop := leftRestSpaced.ordered source inLeftRest
  · refine absurd ?_ notLater
    calc
      right.stop < source.start := rightGaps source inRightRest
      _ ≤ source.stop := rightRestSpaced.ordered source inRightRest

end Merged

section Ties

variable {lefts rights : List Interval}
variable (leftsSpaced : Spaced lefts) (rightsSpaced : Spaced rights)

include leftsSpaced rightsSpaced

/-- A start that is tied with one of the left operand is that one. -/
theorem start_eq_of_equiv_left :
    ∀ outer ∈ sweep lefts rights, ∀ inner ∈ lefts,
      outer.start ≈ inner.start → outer.start = inner.start := by
  have swept := spaced_sweep leftsSpaced rightsSpaced
  intro outer outerMember inner innerMember tied
  fun_induction sweep lefts rights with
  | case1 rights => cases innerMember
  | case2 left leftRest =>
      rw [leftsSpaced.eq_of_start_equiv outerMember innerMember tied]
  | case3 left leftRest right rightRest before inductionHypothesis =>
      have leftRestSpaced := (spaced_cons_iff.mp leftsSpaced).2.2
      rcases List.mem_cons.mp outerMember with rfl | outerInRest
      · rw [leftsSpaced.eq_of_start_equiv (by simp) innerMember tied]
      · rcases List.mem_cons.mp innerMember with rfl | innerInRest
        · rw [swept.eq_of_start_equiv outerMember (by simp) tied]
        · exact inductionHypothesis leftRestSpaced rightsSpaced
            (spaced_cons_iff.mp swept).2.2 outerInRest innerInRest
  | case4 left leftRest right rightRest notBefore after
      inductionHypothesis =>
      obtain ⟨rightOrdered, -, rightRestSpaced⟩ :=
        spaced_cons_iff.mp rightsSpaced
      rcases List.mem_cons.mp outerMember with rfl | outerInRest
      · have gap := leftsSpaced.before_all after inner innerMember
        exact absurd (lt_of_le_of_lt rightOrdered gap)
          (Position.not_lt_of_equiv tied)
      · exact inductionHypothesis leftsSpaced rightRestSpaced
          (spaced_cons_iff.mp swept).2.2 outerInRest innerMember
  | case5 left leftRest right rightRest notBefore notAfter shorter
      inductionHypothesis =>
      have leftRestSpaced := (spaced_cons_iff.mp leftsSpaced).2.2
      have mergedSpaced := rightsSpaced.hull_of_shorter leftsSpaced shorter
      rcases List.mem_cons.mp innerMember with rfl | innerInRest
      · obtain ⟨source, sourceMember, -, equal⟩ := exists_start_of_mem_sweep
          leftRestSpaced mergedSpaced outer outerMember
        rw [equal] at tied ⊢
        exact start_eq_of_merged leftsSpaced rightsSpaced
          (List.perm_middle.mem_iff.mp sourceMember)
          (Interval.meets_of_not_before notBefore notAfter) tied
      · exact inductionHypothesis leftRestSpaced mergedSpaced swept
          outerMember innerInRest
  | case6 left leftRest right rightRest notBefore notAfter notShorter
      inductionHypothesis =>
      have rightRestSpaced := (spaced_cons_iff.mp rightsSpaced).2.2
      have mergedSpaced :=
        leftsSpaced.hull_of_notShorter rightsSpaced notShorter
      rcases List.mem_cons.mp innerMember with rfl | innerInRest
      · obtain ⟨source, sourceMember, -, equal⟩ := exists_start_of_mem_sweep
          mergedSpaced rightRestSpaced outer outerMember
        rw [equal] at tied ⊢
        exact start_eq_of_merged leftsSpaced rightsSpaced sourceMember
          (Interval.meets_of_not_before notBefore notAfter) tied
      · exact inductionHypothesis mergedSpaced rightRestSpaced swept
          outerMember (List.mem_cons_of_mem _ innerInRest)

/-- A stop that is tied with one of the right operand is that one. -/
theorem stop_eq_of_equiv_right :
    ∀ outer ∈ sweep lefts rights, ∀ inner ∈ rights,
      outer.stop ≈ inner.stop → outer.stop = inner.stop := by
  have swept := spaced_sweep leftsSpaced rightsSpaced
  intro outer outerMember
  fun_induction sweep lefts rights with
  | case1 rights =>
      intro inner innerMember tied
      rw [rightsSpaced.eq_of_stop_equiv outerMember innerMember tied]
  | case2 left leftRest => simp
  | case3 left leftRest right rightRest before inductionHypothesis =>
      intro inner innerMember tied
      have leftRestSpaced := (spaced_cons_iff.mp leftsSpaced).2.2
      rcases List.mem_cons.mp outerMember with rfl | outerInRest
      · have gap := rightsSpaced.before_all before inner innerMember
        exact absurd (lt_of_lt_of_le gap (rightsSpaced.ordered inner innerMember))
          (Position.not_lt_of_equiv tied)
      · exact inductionHypothesis leftRestSpaced rightsSpaced
          (spaced_cons_iff.mp swept).2.2 outerInRest inner innerMember tied
  | case4 left leftRest right rightRest notBefore after
      inductionHypothesis =>
      intro inner innerMember tied
      have rightRestSpaced := (spaced_cons_iff.mp rightsSpaced).2.2
      rcases List.mem_cons.mp outerMember with rfl | outerInRest
      · rw [rightsSpaced.eq_of_stop_equiv (by simp) innerMember tied]
      · rcases List.mem_cons.mp innerMember with rfl | innerInRest
        · rw [swept.eq_of_stop_equiv outerMember (by simp) tied]
        · exact inductionHypothesis leftsSpaced rightRestSpaced
            (spaced_cons_iff.mp swept).2.2 outerInRest inner innerInRest tied
  | case5 left leftRest right rightRest notBefore notAfter shorter
      inductionHypothesis =>
      intro inner innerMember tied
      obtain ⟨leftOrdered, -, leftRestSpaced⟩ :=
        spaced_cons_iff.mp leftsSpaced
      have rightOrdered := (spaced_cons_iff.mp rightsSpaced).1
      have mergedSpaced := rightsSpaced.hull_of_shorter leftsSpaced shorter
      -- The right operand keeps the hull, and with it the stop of its first
      -- interval.
      have kept : (left.hull right).stop = right.stop := by
        rw [Interval.hull_eq_join leftOrdered rightOrdered]
        exact Position.later_of_le (le_of_lt shorter)
      rcases List.mem_cons.mp innerMember with rfl | innerInRest
      · rw [← kept] at tied ⊢
        exact inductionHypothesis leftRestSpaced mergedSpaced swept
          outerMember _ (by simp) tied
      · exact inductionHypothesis leftRestSpaced mergedSpaced swept
          outerMember inner (List.mem_cons_of_mem _ innerInRest) tied
  | case6 left leftRest right rightRest notBefore notAfter notShorter
      inductionHypothesis =>
      intro inner innerMember tied
      have rightRestSpaced := (spaced_cons_iff.mp rightsSpaced).2.2
      have mergedSpaced :=
        leftsSpaced.hull_of_notShorter rightsSpaced notShorter
      rcases List.mem_cons.mp innerMember with rfl | innerInRest
      · obtain ⟨source, sourceMember, -, equal⟩ := exists_stop_of_mem_sweep
          mergedSpaced rightRestSpaced outer outerMember
        rw [equal] at tied ⊢
        exact stop_eq_of_merged leftsSpaced rightsSpaced sourceMember
          notShorter tied
      · exact inductionHypothesis mergedSpaced rightRestSpaced swept
          outerMember inner innerInRest tied

end Ties

/-- What becomes of the ends of two canonical ranges. Each of their intervals
lies inside exactly one interval of the union. The union takes each start from
an interval inside, where it is the least start, and from the left range if that
has one at the same point; each stop from an interval inside, where it is the
greatest stop, and from the right range if that has one at the same point. -/
theorem union_keeps_ends
    {left right : Range}
    (leftCanonical : left.Canonical)
    (rightCanonical : right.Canonical) :
    (∀ inner ∈ left.intervals ++ right.intervals,
      ∃! outer, outer ∈ (left ∪ right).intervals ∧ inner.Within outer) ∧
    ∀ outer ∈ (left ∪ right).intervals,
      ((∃ inner ∈ left.intervals ++ right.intervals,
          inner.Within outer ∧ outer.start = inner.start) ∧
        (∀ inner ∈ left.intervals ++ right.intervals,
          inner.Within outer → outer.start ≤ inner.start) ∧
        (∀ inner ∈ left.intervals, inner.Within outer →
          outer.start ≈ inner.start → outer.start = inner.start)) ∧
      ((∃ inner ∈ left.intervals ++ right.intervals,
          inner.Within outer ∧ outer.stop = inner.stop) ∧
        (∀ inner ∈ left.intervals ++ right.intervals,
          inner.Within outer → inner.stop ≤ outer.stop) ∧
        (∀ inner ∈ right.intervals, inner.Within outer →
          outer.stop ≈ inner.stop → outer.stop = inner.stop)) := by
  have lefts := leftCanonical.spaced
  have rights := rightCanonical.spaced
  refine ⟨existsUnique_within_sweep lefts rights, ?_⟩
  intro outer member
  refine ⟨⟨exists_start_of_mem_sweep lefts rights outer member,
    fun _ _ within => within.1, ?_⟩,
    ⟨exists_stop_of_mem_sweep lefts rights outer member,
      fun _ _ within => within.2, ?_⟩⟩
  · intro inner innerMember _
    exact start_eq_of_equiv_left lefts rights outer member inner innerMember
  · intro inner innerMember _
    exact stop_eq_of_equiv_right lefts rights outer member inner innerMember

/-- Two characters and two empty intervals on the second line and the third. -/
def brokenUp : Range :=
  ⟨[⟨positionAt 11, positionAt 13⟩, ⟨positionAt 16, positionAt 16⟩,
    ⟨positionAt 22, positionAt 22⟩]⟩

/-- The same, with two characters before the first empty interval, had the text
but one line. -/
def unbroken : Range :=
  ⟨[⟨unbrokenAt 11, unbrokenAt 13⟩, ⟨unbrokenAt 14, unbrokenAt 16⟩,
    ⟨unbrokenAt 22, unbrokenAt 22⟩]⟩

theorem brokenUp_union_unbroken :
    brokenUp ∪ unbroken =
      ⟨[⟨positionAt 11, unbrokenAt 13⟩, ⟨unbrokenAt 14, unbrokenAt 16⟩,
        ⟨positionAt 22, unbrokenAt 22⟩]⟩ := by
  apply congrArg mk
  change sweep [_, _, _] [_, _, _] = _
  rw [sweep, if_neg (by decide), if_neg (by decide), if_neg (by decide),
    sweep, if_pos (by decide), sweep, if_neg (by decide), if_neg (by decide),
    if_neg (by decide), sweep, if_pos (by decide), sweep, if_neg (by decide),
    if_neg (by decide), if_neg (by decide), sweep_nil_right]
  rfl

/-- Two empty intervals at one point: the left one gives the start of what they
become and the right one the stop. -/
theorem union_keeps_ends_of_broken :
    brokenUp.Canonical ∧ unbroken.Canonical ∧
    (∃! outer, outer ∈ (brokenUp ∪ unbroken).intervals ∧
      Interval.Within ⟨positionAt 16, positionAt 16⟩ outer) ∧
    ∃ outer ∈ (brokenUp ∪ unbroken).intervals,
      Interval.Within ⟨positionAt 22, positionAt 22⟩ outer ∧
      outer.start = positionAt 22 ∧ outer.stop = unbrokenAt 22 := by
  have brokenUpCanonical : brokenUp.Canonical := by decide
  have unbrokenCanonical : unbroken.Canonical := by decide
  obtain ⟨unique, ends⟩ :=
    union_keeps_ends brokenUpCanonical unbrokenCanonical
  have member : ⟨positionAt 22, unbrokenAt 22⟩ ∈
      (brokenUp ∪ unbroken).intervals := by
    rw [brokenUp_union_unbroken]
    decide
  obtain ⟨⟨-, -, starts⟩, -, -, stops⟩ := ends _ member
  exact ⟨brokenUpCanonical, unbrokenCanonical,
    unique ⟨positionAt 16, positionAt 16⟩ (by decide),
    _, member, by decide,
    starts ⟨positionAt 22, positionAt 22⟩ (by decide) (by decide) (by decide),
    stops ⟨unbrokenAt 22, unbrokenAt 22⟩ (by decide) (by decide) (by decide)⟩

end Range
end Locus
