import Locus.Offsets
import Locus.Proofs.Range.Cover

/-!
# Offsets and covers

Offsets forget the text. For intervals with both ends in one file nothing is
lost: an offset belongs to the interval exactly when the interval covers the
point with that offset in its file, stops included.
-/

namespace Locus

namespace Interval

/-- Both ends lie in one file. -/
def InOneFile (interval : Interval) : Prop :=
  interval.start.file = interval.stop.file

instance (interval : Interval) : Decidable interval.InOneFile :=
  inferInstanceAs (Decidable (_ = _))

theorem mem_offsets {interval : Interval} {offset : Int} :
    offset ∈ interval.offsets ↔
      interval.start.offset ≤ offset ∧ offset ≤ interval.stop.offset :=
  OffsetSet.mem_between

/-- An interval in one file covers points of that file only, those whose
offsets it has. -/
theorem covers_closed_iff
    {interval : Interval}
    (inOneFile : interval.InOneFile)
    {point : Point} :
    interval.Covers .closed point ↔
      point.file = interval.file ∧ point.offset ∈ interval.offsets := by
  unfold InOneFile at inOneFile
  rw [mem_offsets]
  constructor
  · rintro ⟨afterStart, beforeStop⟩
    have sameFile : point.file = interval.start.file :=
      Point.file_eq_of_le_of_le inOneFile afterStart beforeStop
    exact ⟨sameFile,
      (Point.le_iff_of_file_eq sameFile.symm).mp afterStart,
      (Point.le_iff_of_file_eq (sameFile.trans inOneFile)).mp beforeStop⟩
  · rintro ⟨sameFile, afterStart, beforeStop⟩
    exact ⟨(Point.le_iff_of_file_eq sameFile.symm).mpr afterStart,
      (Point.le_iff_of_file_eq (sameFile.trans inOneFile)).mpr beforeStop⟩

/-- Intervals of different files do not meet: whichever of the two stops comes
first lies between two points of the other file. -/
theorem file_eq_of_meets
    {left right : Interval}
    (leftInOneFile : left.InOneFile)
    (rightInOneFile : right.InOneFile)
    (meets : left.Meets right) :
    left.start.file = right.start.file := by
  unfold InOneFile at leftInOneFile rightInOneFile
  rcases le_total left.stop.toPoint right.stop.toPoint with
    leftFirst | rightFirst
  · have sameFile : left.stop.file = right.start.file :=
      Point.file_eq_of_le_of_le rightInOneFile meets.2 leftFirst
    exact leftInOneFile.trans sameFile
  · have sameFile : right.stop.file = left.start.file :=
      Point.file_eq_of_le_of_le leftInOneFile meets.1 rightFirst
    exact sameFile.symm.trans rightInOneFile.symm

theorem inOneFile_hull
    {left right : Interval}
    (leftOrdered : left.Ordered)
    (rightOrdered : right.Ordered)
    (meets : left.Meets right)
    (leftInOneFile : left.InOneFile)
    (rightInOneFile : right.InOneFile) :
    (left.hull right).InOneFile := by
  have sameFile := file_eq_of_meets leftInOneFile rightInOneFile meets
  unfold InOneFile at *
  have startFile : (left.hull right).start.file = left.start.file := by
    rcases start_hull_eq_or leftOrdered rightOrdered with start | start
    · rw [start]
    · rw [start, sameFile]
  have stopFile : (left.hull right).stop.file = left.stop.file := by
    rcases stop_hull_eq_or leftOrdered rightOrdered with stop | stop
    · rw [stop]
    · rw [stop, ← rightInOneFile, ← sameFile, leftInOneFile]
  rw [startFile, stopFile, leftInOneFile]

end Interval

namespace Range

/-- For intervals with both ends in one file the offsets of a range are those
of the points it covers. -/
theorem mem_offsets_iff_covers
    {range : Range}
    (inOneFile : ∀ interval ∈ range.intervals, interval.InOneFile)
    {offset : Int} :
    offset ∈ range.offsets ↔ ∃ file, range.Covers .closed ⟨file, offset⟩ := by
  rw [mem_offsets]
  constructor
  · rintro ⟨interval, member, present⟩
    refine ⟨interval.file, interval, member, ?_⟩
    exact (Interval.covers_closed_iff (inOneFile interval member)).mpr
      ⟨rfl, present⟩
  · rintro ⟨file, interval, member, covered⟩
    refine ⟨interval, member, ?_⟩
    exact ((Interval.covers_closed_iff
      (inOneFile interval member)).mp covered).2

end Range

end Locus
