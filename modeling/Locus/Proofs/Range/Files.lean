import Locus.Proofs.Range.Normal

/-!
# One file at a time

Neither the union nor the normal form looks at files. Still they work on every
file for itself: files come before offsets in the order of points, so intervals
of different files never meet. Whatever is passed on or merged on one file is
passed on or merged alike when the intervals of all other files are left out.
-/

namespace Locus

/-- Intervals in one file each that meet are in the same file, and so is their
hull. -/
theorem Interval.same_file_of_meets
    {left right : Interval}
    (leftOrdered : left.Ordered)
    (rightOrdered : right.Ordered)
    (meets : left.Meets right)
    (leftInOneFile : left.InOneFile)
    (rightInOneFile : right.InOneFile) :
    left.file = right.file ∧ (left.hull right).file = left.file ∧
      (left.hull right).InOneFile := by
  have sameFile : left.file = right.file :=
    file_eq_of_meets leftInOneFile rightInOneFile meets
  have hullInOneFile := inOneFile_hull leftOrdered rightOrdered meets
    leftInOneFile rightInOneFile
  refine ⟨sameFile, ?_, hullInOneFile⟩
  unfold file at *
  rcases start_hull_eq_or leftOrdered rightOrdered with start | start
  · rw [start]
  · rw [start, sameFile]

namespace Range

/-- The intervals of one file, in order. -/
def inFile (file : String) (intervals : List Interval) : List Interval :=
  intervals.filter fun interval => interval.file = file

/-- The part of the range in one file. -/
def only (file : String) (range : Range) : Range :=
  ⟨inFile file range.intervals⟩

section InFile

variable {file : String} {interval : Interval} {rest : List Interval}

@[simp] theorem inFile_nil : inFile file [] = [] := rfl

theorem inFile_cons_of_eq (same : interval.file = file) :
    inFile file (interval :: rest) = interval :: inFile file rest :=
  List.filter_cons_of_pos (decide_eq_true same)

theorem inFile_cons_of_ne (different : interval.file ≠ file) :
    inFile file (interval :: rest) = inFile file rest :=
  List.filter_cons_of_neg (by simpa using different)

/-- The file of an interval decides whether the interval is kept. -/
theorem inFile_cons_of_file_eq
    {name : String}
    (sameName : interval.file = name) :
    inFile file (interval :: rest) =
      if name = file then interval :: inFile file rest
      else inFile file rest := by
  subst sameName
  split
  case isTrue same => exact inFile_cons_of_eq same
  case isFalse different => exact inFile_cons_of_ne different

theorem forall_mem_inFile
    {Holds : Interval → Prop}
    (file : String)
    (hold : ∀ interval ∈ rest, Holds interval) :
    ∀ interval ∈ inFile file rest, Holds interval :=
  fun interval member => hold interval (List.mem_of_mem_filter member)

end InFile

section Sweep

variable {file : String} {lefts rights : List Interval}

/-- An interval of the left operand before all of the right one is passed on. -/
theorem sweep_cons_of_before
    {left : Interval}
    (gaps : ∀ right ∈ rights, left.Before right) :
    sweep (left :: lefts) rights = left :: sweep lefts rights := by
  cases rights with
  | nil => rw [sweep_nil_right, sweep_nil_right]
  | cons right rightRest =>
      have gap : left.stop < right.start := gaps right (by simp)
      rw [sweep, if_pos gap]

/-- An interval of the right operand before all of the left one is passed
on. The left operand is asked first, so its first interval must not be before
the passed one. -/
theorem sweep_cons_of_after
    {right : Interval}
    (rightOrdered : right.Ordered)
    (leftsOrdered : ∀ left ∈ lefts, left.Ordered)
    (gaps : ∀ left ∈ lefts, right.Before left) :
    sweep lefts (right :: rights) = right :: sweep lefts rights := by
  cases lefts with
  | nil => rw [sweep_nil_left, sweep_nil_left]
  | cons left leftRest =>
      have gap : right.stop < left.start := gaps left (by simp)
      have notBefore : ¬left.stop < right.start :=
        Std.not_lt.mpr <| calc
          right.start ≤ right.stop := rightOrdered
          _ ≤ left.start := le_of_lt gap
          _ ≤ left.stop := leftsOrdered left (by simp)
      rw [sweep, if_neg notBefore, if_pos gap]

/-- The sweep does on every file what it would do on that file alone. The two
runs differ in the steps that pass on or merge intervals of other files. -/
theorem inFile_sweep
    (leftsSpaced : Spaced lefts)
    (rightsSpaced : Spaced rights)
    (leftsInOneFile : ∀ interval ∈ lefts, interval.InOneFile)
    (rightsInOneFile : ∀ interval ∈ rights, interval.InOneFile) :
    inFile file (sweep lefts rights) =
      sweep (inFile file lefts) (inFile file rights) := by
  fun_induction sweep lefts rights with
  | case1 rights => rw [inFile_nil, sweep_nil_left]
  | case2 left leftRest => rw [inFile_nil, sweep_nil_right]
  | case3 left leftRest right rightRest before inductionHypothesis =>
      have rest := inductionHypothesis (spaced_cons_iff.mp leftsSpaced).2.2
        rightsSpaced (List.forall_mem_cons.mp leftsInOneFile).2
        rightsInOneFile
      by_cases same : left.file = file
      · have gaps := forall_mem_inFile file (rightsSpaced.before_all before)
        rw [inFile_cons_of_eq same, inFile_cons_of_eq same, rest,
          sweep_cons_of_before gaps]
      · rw [inFile_cons_of_ne same, inFile_cons_of_ne same, rest]
  | case4 left leftRest right rightRest notBefore after
      inductionHypothesis =>
      obtain ⟨rightOrdered, -, rightRestSpaced⟩ :=
        spaced_cons_iff.mp rightsSpaced
      have rest := inductionHypothesis leftsSpaced rightRestSpaced
        leftsInOneFile (List.forall_mem_cons.mp rightsInOneFile).2
      by_cases same : right.file = file
      · have gaps := forall_mem_inFile file (leftsSpaced.before_all after)
        have ordered := forall_mem_inFile file leftsSpaced.ordered
        rw [inFile_cons_of_eq same, inFile_cons_of_eq same, rest,
          sweep_cons_of_after rightOrdered ordered gaps]
      · rw [inFile_cons_of_ne same, inFile_cons_of_ne same, rest]
  | case5 left leftRest right rightRest notBefore notAfter shorter
      inductionHypothesis =>
      rw [List.forall_mem_cons] at leftsInOneFile rightsInOneFile
      obtain ⟨sameFile, hullFile, hullInOneFile⟩ :=
        Interval.same_file_of_meets (leftsSpaced.ordered left (by simp))
          (rightsSpaced.ordered right (by simp))
          (Interval.meets_of_not_before notBefore notAfter)
          leftsInOneFile.1 rightsInOneFile.1
      have rest := inductionHypothesis (spaced_cons_iff.mp leftsSpaced).2.2
        (rightsSpaced.hull_of_shorter leftsSpaced shorter) leftsInOneFile.2
        (List.forall_mem_cons.mpr ⟨hullInOneFile, rightsInOneFile.2⟩)
      rw [rest, inFile_cons_of_file_eq hullFile,
        inFile_cons_of_file_eq sameFile.symm, inFile_cons_of_file_eq rfl]
      split
      · rw [sweep, if_neg notBefore, if_neg notAfter, if_pos shorter]
      · rfl
  | case6 left leftRest right rightRest notBefore notAfter notShorter
      inductionHypothesis =>
      rw [List.forall_mem_cons] at leftsInOneFile rightsInOneFile
      obtain ⟨sameFile, hullFile, hullInOneFile⟩ :=
        Interval.same_file_of_meets (leftsSpaced.ordered left (by simp))
          (rightsSpaced.ordered right (by simp))
          (Interval.meets_of_not_before notBefore notAfter)
          leftsInOneFile.1 rightsInOneFile.1
      have rest := inductionHypothesis
        (leftsSpaced.hull_of_notShorter rightsSpaced notShorter)
        (spaced_cons_iff.mp rightsSpaced).2.2
        (List.forall_mem_cons.mpr ⟨hullInOneFile, leftsInOneFile.2⟩)
        rightsInOneFile.2
      rw [rest, inFile_cons_of_file_eq hullFile,
        inFile_cons_of_file_eq sameFile.symm, inFile_cons_of_file_eq rfl]
      split
      · rw [sweep, if_neg notBefore, if_neg notAfter, if_neg notShorter]
      · rfl

end Sweep

section OfIntervals

variable {file : String} {pending : Interval} {rest : List Interval}

/-- Nothing is merged across a gap. -/
theorem joinNeighbours_cons_of_before
    (gaps : ∀ later ∈ rest, pending.Before later) :
    joinNeighbours (pending :: rest) = pending :: joinNeighbours rest := by
  cases rest with
  | nil => rfl
  | cons next rest =>
      have gap : pending.stop < next.start := gaps next (by simp)
      rw [joinNeighbours, coalesce, if_pos gap, joinNeighbours]

/-- Merging does on every file what it would do on that file alone. -/
theorem inFile_coalesce
    (rising : Rising (pending :: rest))
    (ordered : ∀ interval ∈ pending :: rest, interval.Ordered)
    (inOneFile : ∀ interval ∈ pending :: rest, interval.InOneFile) :
    inFile file (coalesce pending rest) =
      joinNeighbours (inFile file (pending :: rest)) := by
  fun_induction coalesce pending rest with
  | case1 pending =>
      by_cases same : pending.file = file
      · rw [inFile_cons_of_eq same, inFile_nil]
        rfl
      · rw [inFile_cons_of_ne same, inFile_nil]
        rfl
  | case2 pending next rest gap inductionHypothesis =>
      have remaining := inductionHypothesis rising.tail
        (List.forall_mem_cons.mp ordered).2
        (List.forall_mem_cons.mp inOneFile).2
      by_cases same : pending.file = file
      · have gaps := forall_mem_inFile file (rising.tail.before_all gap)
        rw [inFile_cons_of_eq same, inFile_cons_of_eq same, remaining,
          joinNeighbours_cons_of_before gaps]
      · rw [inFile_cons_of_ne same, inFile_cons_of_ne same, remaining]
  | case3 pending next rest noGap inductionHypothesis =>
      simp only [List.forall_mem_cons] at ordered inOneFile
      obtain ⟨pendingOrdered, nextOrdered, restOrdered⟩ := ordered
      obtain ⟨pendingInOneFile, nextInOneFile, restInOneFile⟩ := inOneFile
      obtain ⟨sameFile, hullFile, hullInOneFile⟩ :=
        Interval.same_file_of_meets pendingOrdered nextOrdered
          (rising.meets nextOrdered noGap) pendingInOneFile nextInOneFile
      rw [inductionHypothesis (rising.absorb pendingOrdered nextOrdered)
        (List.forall_mem_cons.mpr
          ⟨Interval.ordered_hull pending next, restOrdered⟩)
        (List.forall_mem_cons.mpr ⟨hullInOneFile, restInOneFile⟩)]
      by_cases same : pending.file = file
      · rw [inFile_cons_of_eq (hullFile.trans same), inFile_cons_of_eq same,
          inFile_cons_of_eq (sameFile ▸ same), joinNeighbours,
          joinNeighbours, coalesce, if_neg noGap]
      · rw [inFile_cons_of_ne (hullFile ▸ same), inFile_cons_of_ne same,
          inFile_cons_of_ne (sameFile ▸ same)]

theorem only_ofIntervals
    {intervals : List Interval}
    (ordered : ∀ interval ∈ intervals, interval.Ordered)
    (inOneFile : ∀ interval ∈ intervals, interval.InOneFile)
    (file : String) :
    (ofIntervals intervals).only file =
      ofIntervals (inFile file intervals) := by
  have rising := rising_ascending intervals
  have sorted : inFile file (ascending intervals) =
      ascending (inFile file intervals) :=
    filter_ascending _ intervals
  rw [← forall_mem_ascending_iff] at ordered inOneFile
  rw [ofIntervals, ofIntervals, ← sorted, only]
  generalize ascending intervals = ascended at rising ordered inOneFile
  cases ascended with
  | nil => rfl
  | cons pending rest =>
      exact congrArg mk (inFile_coalesce rising ordered inOneFile)

end OfIntervals

theorem inOneFile_ofIntervals
    {intervals : List Interval}
    (ordered : ∀ interval ∈ intervals, interval.Ordered) :
    (∀ interval ∈ intervals, interval.InOneFile) →
      ∀ interval ∈ (ofIntervals intervals).intervals, interval.InOneFile :=
  forall_ofIntervals Interval.inOneFile_hull ordered

/-- Files are never mixed. Where every interval has both ends in one file, so
has every interval of a union of canonical ranges, and the part of the union in
any file is the union of the parts in that file, in lines and columns too. The
normal form of valid intervals is made up of the normal forms of the intervals
of each file in the same way. -/
theorem files_stay_apart :
    (∀ left right : Range, left.Canonical → right.Canonical →
      (∀ interval ∈ left.intervals ++ right.intervals, interval.InOneFile) →
        (∀ interval ∈ (left ∪ right).intervals, interval.InOneFile) ∧
        ∀ file, (left ∪ right).only file = left.only file ∪ right.only file) ∧
    (∀ intervals : List Interval,
      (∀ interval ∈ intervals, interval.Valid ∧ interval.InOneFile) →
        (∀ interval ∈ (ofIntervals intervals).intervals,
          interval.InOneFile) ∧
        ∀ file, (ofIntervals intervals).only file =
          ofIntervals (inFile file intervals)) := by
  constructor
  · intro left right leftCanonical rightCanonical inOneFile
    rw [List.forall_mem_append] at inOneFile
    have leftSpaced := leftCanonical.spaced
    have rightSpaced := rightCanonical.spaced
    refine ⟨inOneFile_sweep leftSpaced.ordered rightSpaced.ordered
      inOneFile.1 inOneFile.2, ?_⟩
    intro file
    exact congrArg mk
      (inFile_sweep leftSpaced rightSpaced inOneFile.1 inOneFile.2)
  · intro intervals hold
    rw [forall₂_and] at hold
    have ordered := ordered_of_valid hold.1
    exact ⟨inOneFile_ofIntervals ordered hold.2,
      only_ofIntervals ordered hold.2⟩

/-- A stretch of one file and a stretch of another one. -/
def mixedFront : Range :=
  ⟨[⟨.origin "f", ⟨⟨"f", 5⟩, 1, 5⟩⟩,
    ⟨⟨⟨"g", 3⟩, 2, 1⟩, ⟨⟨"g", 4⟩, 2, 2⟩⟩]⟩

/-- A stretch inside the first one, and two around the second. -/
def mixedBack : Range :=
  ⟨[⟨⟨⟨"f", 2⟩, 1, 2⟩, ⟨⟨"f", 3⟩, 1, 3⟩⟩,
    ⟨.origin "g", .origin "g"⟩,
    ⟨⟨⟨"g", 4⟩, 1, 4⟩, ⟨⟨"g", 6⟩, 1, 6⟩⟩]⟩

/-- The two files have offsets in common, yet each is united by itself. -/
theorem files_stay_apart_of_mixed :
    mixedFront.Canonical ∧ mixedBack.Canonical ∧
    (∀ interval ∈ mixedFront.intervals ++ mixedBack.intervals,
      interval.InOneFile) ∧
    (mixedFront ∪ mixedBack).only "g" =
      ⟨[⟨.origin "g", .origin "g"⟩,
        ⟨⟨⟨"g", 3⟩, 2, 1⟩, ⟨⟨"g", 6⟩, 1, 6⟩⟩]⟩ ∧
    (∀ interval ∈ fallingFronts ++ fallingBacks,
      interval.Valid ∧ interval.InOneFile) ∧
    (ofIntervals (fallingFronts ++ fallingBacks)).only "g" =
      Interval.toRange ⟨.origin "g", .origin "g"⟩ := by
  obtain ⟨ofRanges, ofLists⟩ := files_stay_apart
  have parts := (ofRanges mixedFront mixedBack (by decide) (by decide)
    (by decide)).2 "g"
  have alone : mixedFront.only "g" ∪ mixedBack.only "g" =
      ⟨[⟨.origin "g", .origin "g"⟩,
        ⟨⟨⟨"g", 3⟩, 2, 1⟩, ⟨⟨"g", 6⟩, 1, 6⟩⟩]⟩ := by
    apply congrArg mk
    change sweep [_] [_, _] = _
    rw [sweep, if_neg (by decide), if_pos (by decide), sweep,
      if_neg (by decide), if_neg (by decide), if_pos (by decide),
      sweep_nil_left]
    rfl
  have lists := (ofLists (fallingFronts ++ fallingBacks) (by decide)).2 "g"
  have single : inFile "g" (fallingFronts ++ fallingBacks) =
      [⟨.origin "g", .origin "g"⟩] := by
    decide
  rw [single, ofIntervals_singleton] at lists
  exact ⟨by decide, by decide, by decide, parts.trans alone, by decide, lists⟩

end Range
end Locus
