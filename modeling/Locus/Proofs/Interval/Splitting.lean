import Locus.Proofs.Interval.Tiling
import Locus.Range.Union

/-!
# Splitting an interval

A text that fits splits an interval at the position it reads up to. Both parts
of a valid interval are valid, and put together again they are the interval
itself: the position in the middle is dropped, and the stop survives even where
the middle is tied with it.
-/

namespace Locus

/-- Ranges of two intervals that lie end to end unite to the range of the whole
stretch. The sweep sees that the two touch and takes their hull, whichever of
them stops later. -/
theorem Range.union_of_end_to_end
    {first middle last : Position}
    (front : first ≤ middle)
    (back : middle ≤ last) :
    (Interval.mk first middle).toRange ∪ (Interval.mk middle last).toRange =
      (Interval.mk first last).toRange := by
  have noGap : ¬middle < middle := lt_irrefl middle
  have notAfter : ¬last < first := Std.not_lt.mpr (le_trans front back)
  have whole := Interval.hull_of_end_to_end front back
  apply congrArg Range.mk
  rw [intervals_toRange, intervals_toRange, sweep, if_neg noGap,
    if_neg notAfter, whole]
  split
  · exact sweep_nil_left _
  · exact sweep_nil_right _

namespace Interval

/-- What a text covers that is read from the start. -/
def covered (interval : Interval) (text : String) : Interval where
  start := interval.start
  stop := interval.start.advanceBy text

/-- What lies behind a text that is read from the start. -/
def beyond (interval : Interval) (text : String) : Interval where
  start := interval.start.advanceBy text
  stop := interval.stop

variable {interval : Interval} {text : String}

@[simp] theorem length_covered (interval : Interval) (text : String) :
    (interval.covered text).length = text.length := by
  change (interval.start.advanceBy text).offset - interval.start.offset = _
  rw [Position.offset_advanceBy]
  omega

@[simp] theorem length_beyond (interval : Interval) (text : String) :
    (interval.beyond text).length = interval.length - text.length := by
  change interval.stop.offset - (interval.start.advanceBy text).offset = _
  rw [Position.offset_advanceBy, length]
  omega

@[simp] theorem beyond_append (interval : Interval) (front back : String) :
    interval.beyond (front ++ back) = (interval.beyond front).beyond back :=
  congrArg (mk · interval.stop)
    (Position.advanceBy_append interval.start front back)

/-- A text that fits is read up to a position at or before the stop. Within one
file the offsets tell so, and every position comes before a later file. -/
theorem advanceBy_le_stop_of_fits
    (ordered : interval.Ordered)
    (fits : (text.length : Int) ≤ interval.length) :
    interval.start.advanceBy text ≤ interval.stop := by
  have file := Position.file_advanceBy interval.start text
  by_cases sameFile : interval.start.file = interval.stop.file
  case pos =>
    rw [Position.le_iff, Point.le_iff_of_file_eq (file.trans sameFile),
      Position.offset_advanceBy]
    unfold length at fits
    omega
  case neg =>
    have less : interval.start.toPoint < interval.stop.toPoint :=
      lt_of_le_of_ne ordered fun equal =>
        sameFile (congrArg Point.file equal)
    have earlierFile : interval.start.file < interval.stop.file :=
      (Point.lt_iff.mp less).resolve_right fun both => sameFile both.1
    rw [← file] at earlierFile
    exact le_of_lt (Point.lt_iff.mpr (Or.inl earlierFile))

section Split

variable (valid : interval.Valid)
  (fits : (text.length : Int) ≤ interval.length)

include valid

theorem valid_covered : (interval.covered text).Valid :=
  ⟨valid.1, valid.1.advanceBy text, Position.le_advanceBy _ text⟩

include fits

theorem valid_beyond : (interval.beyond text).Valid :=
  ⟨valid.1.advanceBy text, valid.2.1,
    advanceBy_le_stop_of_fits valid.ordered fits⟩

theorem hull_covered_beyond :
    (interval.covered text).hull (interval.beyond text) = interval :=
  hull_of_end_to_end (Position.le_advanceBy _ text)
    (advanceBy_le_stop_of_fits valid.ordered fits)

theorem intervals_union_covered_beyond :
    ((interval.covered text).toRange ∪
      (interval.beyond text).toRange).intervals = [interval] :=
  congrArg Range.intervals <|
    Range.union_of_end_to_end (Position.le_advanceBy _ text)
      (advanceBy_le_stop_of_fits valid.ordered fits)

end Split

/-- A text that fits splits a valid interval without loss. Both parts are valid,
the first is as long as the text, and together they are as long as the interval.
They share the position in the middle. Their hull is the interval itself, and so
is the only interval of their union, in lines and columns too: where the text
fills the interval, the stop is kept and not the position that the text was read
up to. -/
theorem split_loses_nothing
    (valid : interval.Valid)
    (fits : (text.length : Int) ≤ interval.length) :
    ∃ front back : Interval,
      (interval.take text).run = (.ok front, []) ∧
      (interval.drop text).run = (.ok back, []) ∧
      front.Valid ∧
      back.Valid ∧
      front.length = text.length ∧
      front.length + back.length = interval.length ∧
      front.stop = back.start ∧
      front.hull back = interval ∧
      (front.toRange ∪ back.toRange).intervals = [interval] := by
  refine ⟨interval.covered text, interval.beyond text, run_take_of_fits fits,
    run_drop_of_fits fits, valid_covered valid, valid_beyond valid fits,
    length_covered interval text, ?_, rfl, hull_covered_beyond valid fits,
    intervals_union_covered_beyond valid fits⟩
  rw [length_covered, length_beyond]
  omega

/-- Three characters, whose stop is shown at another place than the one that
reading them leads to. -/
def misplaced : Interval :=
  ⟨⟨⟨"f", 1⟩, 1, 1⟩, ⟨⟨"f", 4⟩, 9, 9⟩⟩

/-- A text that fills the interval and is read up to another line and column
than its stop has. -/
theorem split_loses_nothing_of_misplaced :
    misplaced.Valid ∧
    ("a\t\n".length : Int) ≤ misplaced.length ∧
    misplaced.start.advanceBy "a\t\n" ≠ misplaced.stop ∧
    ∃ front back : Interval,
      (misplaced.take "a\t\n").run = (.ok front, []) ∧
      (misplaced.drop "a\t\n").run = (.ok back, []) ∧
      front.hull back = misplaced ∧
      (front.toRange ∪ back.toRange).intervals = [misplaced] := by
  have valid : misplaced.Valid := by decide
  have fits : ("a\t\n".length : Int) ≤ misplaced.length := by decide
  obtain ⟨front, back, taken, dropped, -, -, -, -, -, hull, union⟩ :=
    split_loses_nothing valid fits
  exact ⟨valid, fits, by decide, front, back, taken, dropped, hull, union⟩

end Interval

end Locus
