import Locus.Proofs.Interval.Splitting
import Locus.Proofs.Range.TightBound

/-!
# Measuring intervals

Validity compares the ends of an interval as positions, and a position of an
earlier file comes first whatever its offset is. The length of an interval, the
test whether a text fits into it and its set of offsets compare bare offsets. In
one file the two views agree, so a valid interval can be measured there. Across
files they need not agree. A bound of several intervals stays in one file just
when all of them lie in that file.
-/

namespace Locus
namespace Interval

open Sample (positionAt)

/-- The interval has a length, even the empty text can be read from it, and it
has one offset more than characters. -/
structure Measured (interval : Interval) : Prop where
  /-- The number of characters is not negative. -/
  length_nonneg : 0 ≤ interval.length
  /-- The empty text covers the start alone. -/
  take_empty : (interval.take "").run =
    (.ok ⟨interval.start, interval.start⟩, [])
  /-- The empty text leaves the whole interval. -/
  drop_empty : (interval.drop "").run = (.ok interval, [])
  /-- Both ends count among the offsets. -/
  size_offsets : (interval.offsets.size : Int) = interval.length + 1

variable {interval : Interval}

/-- An interval is measured when its offsets are in order, and nothing else is
asked of its ends. -/
theorem measured_iff :
    interval.Measured ↔ interval.start.offset ≤ interval.stop.offset := by
  constructor
  · intro measured
    have nonneg := measured.length_nonneg
    unfold length at nonneg
    omega
  · intro inOrder
    have nonneg : 0 ≤ interval.length := by
      unfold length
      omega
    refine ⟨nonneg, run_take_of_fits nonneg, run_drop_of_fits nonneg, ?_⟩
    rw [offsets, OffsetSet.size_between, length]
    omega

/-- In one file the order of positions is the order of offsets. -/
theorem measured_of_inOneFile
    (ordered : interval.Ordered)
    (inOneFile : interval.InOneFile) :
    interval.Measured :=
  measured_iff.mpr ((Point.le_iff_of_file_eq inOneFile).mp ordered)

/-- An interval is measured just when its offsets are in order, and a valid one
with both ends in one file always is. Hulls of valid intervals and outer bounds
of canonical ranges are valid, and they stay in one file just when all ends they
are made from are in that file. -/
theorem valid_in_one_file_is_measured :
    (∀ interval : Interval,
      interval.Measured ↔ interval.start.offset ≤ interval.stop.offset) ∧
    (∀ interval : Interval, interval.Valid → interval.InOneFile →
      interval.Measured) ∧
    (∀ left right : Interval, left.Valid → right.Valid →
      (left.hull right).Valid ∧
      ((left.hull right).InOneFile ↔
        ∃ file, left.LiesIn file ∧ right.LiesIn file)) ∧
    (∀ (range : Range) (bound : Interval), range.Canonical →
      range.outer? = some bound →
        bound.Valid ∧
        (bound.InOneFile ↔
          ∃ file, ∀ interval ∈ range.intervals, interval.LiesIn file)) := by
  refine ⟨fun _ => measured_iff, ?_, ?_, ?_⟩
  · intro interval valid inOneFile
    exact measured_of_inOneFile valid.ordered inOneFile
  · intro left right leftValid rightValid
    have tight := Range.tightBound_hull leftValid.ordered rightValid.ordered
    have ordered : ∀ interval ∈ [left, right], interval.Ordered := by
      simp [leftValid.ordered, rightValid.ordered]
    refine ⟨valid_hull leftValid rightValid, ?_⟩
    rw [tight.inOneFile_iff ordered]
    simp
  · intro range bound canonical bounded
    have tight := canonical.spaced.tightBound_outer bounded
    exact ⟨tight.valid canonical.1,
      tight.inOneFile_iff canonical.spaced.ordered⟩

/-- A stretch around a line break. -/
def overBreak : Interval :=
  ⟨positionAt 8, positionAt 12⟩

/-- An empty interval in front of it. -/
def inFront : Interval :=
  ⟨positionAt 3, positionAt 3⟩

/-- The stretch, its hull with the interval in front, and the outer bound of the
two are measured, as they all stay in the sample text. -/
theorem valid_in_one_file_is_measured_of_sample :
    overBreak.Valid ∧ overBreak.InOneFile ∧ overBreak.Measured ∧
    inFront.Valid ∧ (overBreak.hull inFront).Measured ∧
    (Range.mk [inFront, overBreak]).Canonical ∧
    (Range.mk [inFront, overBreak]).outer? =
      some ⟨positionAt 3, positionAt 12⟩ ∧
    (Interval.mk (positionAt 3) (positionAt 12)).Measured := by
  obtain ⟨-, measured, ofHull, ofBound⟩ := valid_in_one_file_is_measured
  have valid : overBreak.Valid := by decide
  have frontValid : inFront.Valid := by decide
  have inOneFile : overBreak.InOneFile := by decide
  have canonical : (Range.mk [inFront, overBreak]).Canonical := by decide
  have liesIn :
      ∀ interval ∈ [inFront, overBreak], interval.LiesIn Sample.file := by
    decide
  obtain ⟨hullValid, hullInOneFile⟩ := ofHull _ _ valid frontValid
  have hullMeasured := measured _ hullValid
    (hullInOneFile.mpr ⟨Sample.file, liesIn _ (by simp), liesIn _ (by simp)⟩)
  obtain ⟨boundValid, boundInOneFile⟩ :=
    ofBound _ ⟨positionAt 3, positionAt 12⟩ canonical rfl
  have boundMeasured := measured _ boundValid
    (boundInOneFile.mpr ⟨Sample.file, liesIn⟩)
  exact ⟨valid, inOneFile, measured _ valid inOneFile, frontValid,
    hullMeasured, canonical, rfl, boundMeasured⟩

/-- An empty interval behind the second character of a file. -/
def endOfFile : Interval :=
  ⟨⟨⟨"a", 3⟩, 1, 3⟩, ⟨⟨"a", 3⟩, 1, 3⟩⟩

/-- An empty interval at the start of the next file. -/
def startOfNextFile : Interval :=
  ⟨.origin "b", .origin "b"⟩

/-- From the end of the one file to the start of the other one. -/
def crossing : Interval :=
  ⟨endOfFile.start, startOfNextFile.stop⟩

/-- The interval that crosses the files is valid, and is a hull of valid
intervals and the outer bound of a canonical range. Yet its length is negative,
not even the empty text fits into it, and the number of its offsets is not its
length and one more. -/
theorem crossing_is_not_measured :
    crossing.Valid ∧
    endOfFile.Valid ∧ startOfNextFile.Valid ∧
    endOfFile.hull startOfNextFile = crossing ∧
    (Range.mk [endOfFile, startOfNextFile]).Canonical ∧
    (Range.mk [endOfFile, startOfNextFile]).outer? = some crossing ∧
    crossing.length < 0 ∧
    (crossing.take "").run.1 = .error ⟨0, crossing⟩ ∧
    (crossing.drop "").run.1 = .error ⟨0, crossing⟩ ∧
    (crossing.offsets.size : Int) ≠ crossing.length + 1 := by
  refine ⟨by decide, by decide, by decide, by decide, by decide, rfl,
    by decide, ?_, ?_, by decide⟩
  · rw [run_take]
    rfl
  · rw [run_drop]
    rfl

end Interval
end Locus
