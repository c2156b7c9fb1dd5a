import Locus.Proofs.Range.Offsets
import Locus.Proofs.Range.Outer
import Locus.Proofs.Range.Survivors

/-!
# Tight bounds

A tight bound of some intervals starts where one of them starts, stops where one
of them stops, and contains them all. So it is the least interval that contains
them, its ends have what the ends of all of them have, and it stays in one file
just when they are all in the same one. The outer bound of a canonical range is
tight, and so is the hull of two intervals in order.
-/

namespace Locus

namespace Interval

/-- Both ends lie in the given file. -/
def LiesIn (file : String) (interval : Interval) : Prop :=
  interval.EndsIn (·.file = file)

instance (file : String) (interval : Interval) :
    Decidable (interval.LiesIn file) :=
  inferInstanceAs (Decidable (_ ∧ _))

theorem LiesIn.inOneFile
    {file : String}
    {interval : Interval}
    (liesIn : interval.LiesIn file) :
    interval.InOneFile :=
  liesIn.1.trans liesIn.2.symm

end Interval

namespace Range

/-- An interval that runs from the start of one of the intervals to the stop of
one of them, such that they all lie inside it. -/
structure TightBound (intervals : List Interval) (bound : Interval) : Prop where
  /-- One of the intervals starts there. -/
  starts : ∃ first ∈ intervals, bound.start = first.start
  /-- One of the intervals stops there. -/
  stops : ∃ last ∈ intervals, bound.stop = last.stop
  /-- None of the intervals starts before or stops after it. -/
  contains : ∀ interval ∈ intervals, interval.Within bound

variable {intervals : List Interval} {bound : Interval}

/-- A tight bound is the least interval that contains the intervals. -/
theorem TightBound.within
    (tight : TightBound intervals bound)
    {other : Interval}
    (contains : ∀ interval ∈ intervals, interval.Within other) :
    bound.Within other := by
  obtain ⟨first, firstMember, start⟩ := tight.starts
  obtain ⟨last, lastMember, stop⟩ := tight.stops
  constructor
  · rw [start]
    exact (contains first firstMember).1
  · rw [stop]
    exact (contains last lastMember).2

theorem TightBound.endsIn
    (tight : TightBound intervals bound)
    {pool : Position → Prop}
    (ends : ∀ interval ∈ intervals, interval.EndsIn pool) :
    bound.EndsIn pool := by
  obtain ⟨first, firstMember, start⟩ := tight.starts
  obtain ⟨last, lastMember, stop⟩ := tight.stops
  constructor
  · rw [start]
    exact (ends first firstMember).1
  · rw [stop]
    exact (ends last lastMember).2

/-- A tight bound of ordered intervals is ordered: it contains one of them. -/
theorem TightBound.ordered
    (tight : TightBound intervals bound)
    (ordered : ∀ interval ∈ intervals, interval.Ordered) :
    bound.Ordered := by
  obtain ⟨first, member, -⟩ := tight.starts
  obtain ⟨start, stop⟩ := tight.contains first member
  exact le_trans start (le_trans (ordered first member) stop)

theorem TightBound.valid
    (tight : TightBound intervals bound)
    (valid : ∀ interval ∈ intervals, interval.Valid) :
    bound.Valid := by
  have ends : bound.EndsIn Position.Valid := by
    apply tight.endsIn
    intro interval member
    exact ⟨(valid interval member).1, (valid interval member).2.1⟩
  exact ⟨ends.1, ends.2, tight.ordered (ordered_of_valid valid)⟩

theorem tightBound_singleton (interval : Interval) :
    TightBound [interval] interval where
  starts := ⟨interval, by simp, rfl⟩
  stops := ⟨interval, by simp, rfl⟩
  contains := by
    rw [List.forall_mem_singleton]
    exact Interval.Within.refl interval

/-- A further interval is joined with the bound. -/
theorem TightBound.cons
    (tight : TightBound intervals bound)
    (head : Interval) :
    TightBound (head :: intervals) (head.join bound) where
  starts := by
    obtain ⟨first, member, start⟩ := tight.starts
    rcases Position.earlier_eq_or head.start bound.start with equal | equal
    · exact ⟨head, by simp, equal⟩
    · exact ⟨first, List.mem_cons_of_mem head member, equal.trans start⟩
  stops := by
    obtain ⟨last, member, stop⟩ := tight.stops
    rcases Position.later_eq_or head.stop bound.stop with equal | equal
    · exact ⟨head, by simp, equal⟩
    · exact ⟨last, List.mem_cons_of_mem head member, equal.trans stop⟩
  contains := by
    refine List.forall_mem_cons.mpr ⟨?_, ?_⟩
    · exact ⟨Position.earlier_le_left _ _, Position.le_later_left _ _⟩
    · intro interval member
      exact (tight.contains interval member).trans
        ⟨Position.earlier_le_right _ _, Position.le_later_right _ _⟩

theorem tightBound_hull
    {left right : Interval}
    (leftOrdered : left.Ordered)
    (rightOrdered : right.Ordered) :
    TightBound [left, right] (left.hull right) := by
  rw [Interval.hull_eq_join leftOrdered rightOrdered]
  exact (tightBound_singleton right).cons left

/-- The outer bound of spaced intervals is tight: it is joined from them one by
one. -/
theorem Spaced.tightBound_outer
    (spaced : Spaced intervals)
    (bounded : outer? ⟨intervals⟩ = some bound) :
    TightBound intervals bound := by
  induction intervals generalizing bound with
  | nil => cases bounded
  | cons head rest inductionHypothesis =>
      cases rest with
      | nil =>
          cases bounded
          exact tightBound_singleton head
      | cons next behind =>
          have restSpaced := (spaced_cons_iff.mp spaced).2.2
          have restBounded := outer_cons next behind
          rw [spaced.outer?_cons, restBounded] at bounded
          cases bounded
          exact (inductionHypothesis restSpaced restBounded).cons head

/-- A tight bound stays in one file just when all intervals lie in that file. No
file lies between two positions of another one. -/
theorem TightBound.inOneFile_iff
    (tight : TightBound intervals bound)
    (ordered : ∀ interval ∈ intervals, interval.Ordered) :
    bound.InOneFile ↔
      ∃ file, ∀ interval ∈ intervals, interval.LiesIn file := by
  constructor
  · intro inOneFile
    refine ⟨bound.start.file, ?_⟩
    intro interval member
    obtain ⟨start, stop⟩ := tight.contains interval member
    have inOrder : interval.start ≤ interval.stop := ordered interval member
    exact ⟨Point.file_eq_of_le_of_le inOneFile start (le_trans inOrder stop),
      Point.file_eq_of_le_of_le inOneFile (le_trans start inOrder) stop⟩
  · rintro ⟨file, liesIn⟩
    exact Interval.LiesIn.inOneFile (tight.endsIn liesIn)

end Range

end Locus
