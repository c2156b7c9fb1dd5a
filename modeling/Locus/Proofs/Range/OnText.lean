import Locus.Proofs.Interval.Splitting
import Locus.Proofs.Range.Gathered

/-!
# Locations in a text

An interval lies on a text when both of its ends are positions of the text, in
line and column too, and are in order. A range lies on a text when it is
canonical and the ends of its intervals are positions of the text. Every
operation on locations keeps them on the text, since it takes each end of its
result from an operand.
-/

namespace Locus

/-- The interval runs from one position of the text to another. -/
structure Interval.OnText
    (file text : String) (interval : Interval) : Prop where
  /-- The start is not after the stop. -/
  ordered : interval.Ordered
  /-- Both ends are positions of the text. -/
  ends : interval.EndsIn (Position.OnText file text)

/-- The range is canonical and bounded by positions of the text. -/
structure Range.OnText (file text : String) (range : Range) : Prop where
  /-- The intervals are valid and have gaps between them. -/
  canonical : range.Canonical
  /-- All ends are positions of the text. -/
  ends : ∀ interval ∈ range.intervals,
    interval.EndsIn (Position.OnText file text)

variable {file text : String}

namespace Interval

variable {interval left right part : Interval} {piece : String}

theorem OnText.valid (onText : interval.OnText file text) :
    interval.Valid :=
  ⟨onText.ends.1.valid, onText.ends.2.valid, onText.ordered⟩

/-- The ends are the positions after two prefixes, the first not longer than
the second. -/
theorem OnText.exists_after (onText : interval.OnText file text) :
    ∃ first last, first ≤ last ∧ last ≤ text.length ∧
      interval = ⟨.after file text first, .after file text last⟩ := by
  obtain ⟨start, stop⟩ := interval
  obtain ⟨ordered, ⟨first, firstFits, startEq⟩, last, lastFits, stopEq⟩ :=
    onText
  subst startEq stopEq
  have prefixes : first ≤ last :=
    (Position.after_le_after_iff firstFits lastFits).mp ordered
  exact ⟨first, last, prefixes, lastFits, rfl⟩

theorem OnText.hull
    (leftOnText : left.OnText file text)
    (rightOnText : right.OnText file text) :
    (left.hull right).OnText file text where
  ordered := ordered_hull left right
  ends := endsIn_hull leftOnText.ordered rightOnText.ordered
    leftOnText.ends rightOnText.ends

theorem OnText.take
    (onText : interval.OnText file text)
    (next : piece.toList <+: text.toList.drop interval.start.index)
    (taken : (interval.take piece).run.1 = .ok part) :
    part.OnText file text := by
  rw [run_take] at taken
  split at taken
  case isTrue tooLong => cases taken
  case isFalse fits =>
    cases taken
    constructor
    · exact Position.le_advanceBy interval.start piece
    · exact ⟨onText.ends.1, onText.ends.1.advanceBy next⟩

theorem OnText.drop
    (onText : interval.OnText file text)
    (next : piece.toList <+: text.toList.drop interval.start.index)
    (dropped : (interval.drop piece).run.1 = .ok part) :
    part.OnText file text := by
  rw [run_drop] at dropped
  split at dropped
  case isTrue tooLong => cases dropped
  case isFalse fits =>
    cases dropped
    constructor
    · exact advanceBy_le_stop_of_fits onText.ordered (not_lt.mp fits)
    · exact ⟨onText.ends.1.advanceBy next, onText.ends.2⟩

end Interval

namespace Range

variable {range left right : Range} {parts : List Range}

theorem onText_empty : (∅ : Range).OnText file text where
  canonical := canonical_empty
  ends := by simp

@[simp] theorem onText_toRange_iff {interval : Interval} :
    interval.toRange.OnText file text ↔ interval.OnText file text := by
  constructor
  · intro onText
    exact ⟨((canonical_toRange interval).mp onText.canonical).ordered,
      onText.ends interval (by simp)⟩
  · intro onText
    refine ⟨(canonical_toRange interval).mpr onText.valid, ?_⟩
    rw [intervals_toRange, List.forall_mem_singleton]
    exact onText.ends

/-- All intervals of a range on a text lie on the text. -/
theorem OnText.mem
    (onText : range.OnText file text)
    {interval : Interval}
    (member : interval ∈ range.intervals) :
    interval.OnText file text :=
  ⟨onText.canonical.spaced.ordered interval member,
    onText.ends interval member⟩

theorem OnText.union
    (leftOnText : left.OnText file text)
    (rightOnText : right.OnText file text) :
    (left ∪ right).OnText file text where
  canonical := leftOnText.canonical.union rightOnText.canonical
  ends := endsIn_sweep leftOnText.canonical.spaced.ordered
    rightOnText.canonical.spaced.ordered leftOnText.ends rightOnText.ends

theorem Gathered.onText
    (gathered : Gathered parts range)
    (partsOnText : ∀ part ∈ parts, part.OnText file text) :
    range.OnText file text := by
  induction gathered with
  | nothing => exact onText_empty
  | single part => exact partsOnText part (by simp)
  | both _ _ frontHypothesis backHypothesis =>
      rw [List.forall_mem_append] at partsOnText
      exact (frontHypothesis partsOnText.1).union
        (backHypothesis partsOnText.2)

theorem onText_ofIntervals
    {intervals : List Interval}
    (onText : ∀ interval ∈ intervals, interval.OnText file text) :
    (ofIntervals intervals).OnText file text where
  canonical := by
    apply canonical_ofIntervals
    intro interval member
    exact (onText interval member).valid
  ends := by
    apply endsIn_ofIntervals
    · intro interval member
      exact (onText interval member).ordered
    · intro interval member
      exact (onText interval member).ends

theorem onText_between
    {first second : Position}
    (firstOnText : first.OnText file text)
    (secondOnText : second.OnText file text) :
    (between first second).OnText file text := by
  refine onText_toRange_iff.mpr ⟨Interval.spanning_ordered second first, ?_⟩
  constructor
  · change (second.earlier first).OnText file text
    rcases Position.earlier_eq_or second first with equal | equal <;>
      rw [equal] <;> assumption
  · change (second.later first).OnText file text
    rcases Position.later_eq_or second first with equal | equal <;>
      rw [equal] <;> assumption

theorem OnText.outer
    (onText : range.OnText file text)
    {outer : Interval}
    (bounded : range.outer? = some outer) :
    outer.OnText file text := by
  have ordered := onText.canonical.spaced.ordered_of_outer bounded
  obtain ⟨intervals⟩ := range
  cases intervals with
  | nil => cases bounded
  | cons head rest =>
      have lastMember := List.getLast_mem (List.cons_ne_nil head rest)
      rw [outer_cons] at bounded
      cases bounded
      exact ⟨ordered, (onText.ends head (by simp)).1,
        (onText.ends _ lastMember).2⟩

end Range

end Locus
