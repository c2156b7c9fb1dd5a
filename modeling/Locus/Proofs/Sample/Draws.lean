import Locus.Proofs.Range.FixedPoint

/-!
# What can be drawn

Draws within their bounds always give a sample, and the samples are just the
valid values whose ends are sample positions within the limit. Nothing else is
drawn: two offsets are put in order, and the normal form of drawn intervals is
canonical and takes its ends from them. Nothing is missed: a canonical range is
its own normal form, so drawing the ends of its intervals draws the range, with
no more draws than it has intervals.
-/

namespace Locus

namespace Range

/-- The normal form has no more intervals than it is made of. -/
theorem size_ofIntervals_le (intervals : List Interval) :
    (ofIntervals intervals).size ≤ intervals.length := by
  rw [size, ofIntervals, ← (ascending_perm intervals).length_eq]
  cases ascending intervals with
  | nil => exact Nat.zero_le _
  | cons pending rest => exact length_coalesce_le pending rest

end Range

namespace Sample

variable {limit sizeLimit : Int}

/-- A sequence of two steps succeeds only if both do. -/
theorem steps_of_bind
    {ε α β : Type}
    {step : Except ε α}
    {next : α → Except ε β}
    {result : β}
    (success : step >>= next = .ok result) :
    ∃ value, step = .ok value ∧ next value = .ok result := by
  cases step with
  | error cause => cases success
  | ok value => exact ⟨value, rfl, success⟩

/-- The draw is an offset within the limit. -/
def InBounds (limit draw : Int) : Prop :=
  1 ≤ draw ∧ draw ≤ limit

instance (limit draw : Int) : Decidable (InBounds limit draw) :=
  inferInstanceAs (Decidable (_ ∧ _))

/-- Both offsets of the draw are within the limit. -/
def PairInBounds (limit : Int) (draw : Int × Int) : Prop :=
  InBounds limit draw.1 ∧ InBounds limit draw.2

instance (limit : Int) (draw : Int × Int) :
    Decidable (PairInBounds limit draw) :=
  inferInstanceAs (Decidable (_ ∧ _))

/-- The position can be drawn. -/
def Drawn (limit : Int) (place : Position) : Prop :=
  ∃ draw, InBounds limit draw ∧ positionAt draw = place

theorem position_eq_ok_iff {draw : Int} {place : Position} :
    position limit draw = .ok place ↔
      InBounds limit draw ∧ positionAt draw = place := by
  unfold position
  split
  case isTrue inBounds =>
    rw [Except.ok.injEq, and_iff_right]
    exact inBounds
  case isFalse outOfBounds =>
    constructor
    · rintro ⟨⟩
    · rintro ⟨inBounds, -⟩
      exact absurd inBounds outOfBounds

theorem positionAt_le_positionAt_iff {first second : Int} :
    positionAt first ≤ positionAt second ↔ first ≤ second :=
  Point.le_iff_of_file_eq rfl

section Stretch

/-- The interval between two offsets in either order. -/
def stretch (draw : Int × Int) : Interval where
  start := positionAt (min draw.1 draw.2)
  stop := positionAt (max draw.1 draw.2)

theorem stretch_swap (draw : Int × Int) : stretch draw.swap = stretch draw := by
  rw [stretch, Prod.fst_swap, Prod.snd_swap, min_comm, max_comm, stretch]

theorem stretch_of_le {first last : Int} (ordered : first ≤ last) :
    stretch (first, last) = ⟨positionAt first, positionAt last⟩ := by
  rw [stretch, min_eq_left ordered, max_eq_right ordered]

/-- Ties cannot show: the positions of equal offsets are equal. -/
theorem spanning_positionAt (draw : Int × Int) :
    Interval.spanning (positionAt draw.1) (positionAt draw.2) =
      stretch draw := by
  obtain ⟨first, second⟩ := draw
  rcases le_or_gt first second with ordered | reversed
  · rw [stretch_of_le ordered]
    exact Interval.spanning_of_le (positionAt_le_positionAt_iff.mpr ordered)
  · have turned : positionAt second < positionAt first := by
      rw [← Std.not_le, positionAt_le_positionAt_iff, not_le]
      exact reversed
    rw [← stretch_swap, Prod.swap_prod_mk, stretch_of_le reversed.le]
    exact congrArg₂ Interval.mk (if_pos turned) (if_pos turned)

theorem interval_eq_ok_iff {draw : Int × Int} {interval : Interval} :
    Sample.interval limit draw = .ok interval ↔
      PairInBounds limit draw ∧ stretch draw = interval := by
  rw [← spanning_positionAt]
  constructor
  · intro success
    obtain ⟨start, first, success⟩ := steps_of_bind success
    obtain ⟨stop, second, success⟩ := steps_of_bind success
    obtain ⟨firstInBounds, rfl⟩ := position_eq_ok_iff.mp first
    obtain ⟨secondInBounds, rfl⟩ := position_eq_ok_iff.mp second
    cases success
    exact ⟨⟨firstInBounds, secondInBounds⟩, rfl⟩
  · rintro ⟨⟨firstInBounds, secondInBounds⟩, rfl⟩
    rw [Sample.interval, position_eq_ok_iff.mpr ⟨firstInBounds, rfl⟩,
      position_eq_ok_iff.mpr ⟨secondInBounds, rfl⟩]
    rfl

variable {draw : Int × Int}

theorem PairInBounds.swap (inBounds : PairInBounds limit draw) :
    PairInBounds limit draw.swap :=
  ⟨inBounds.2, inBounds.1⟩

theorem PairInBounds.min_max (inBounds : PairInBounds limit draw) :
    InBounds limit (min draw.1 draw.2) ∧
      InBounds limit (max draw.1 draw.2) := by
  obtain ⟨first, second⟩ := inBounds
  unfold InBounds at *
  omega

theorem PairInBounds.endsIn_stretch (inBounds : PairInBounds limit draw) :
    (stretch draw).EndsIn (Drawn limit) :=
  ⟨⟨_, inBounds.min_max.1, rfl⟩, ⟨_, inBounds.min_max.2, rfl⟩⟩

theorem PairInBounds.valid_stretch (inBounds : PairInBounds limit draw) :
    (stretch draw).Valid := by
  obtain ⟨least, greatest⟩ := inBounds.min_max
  exact ⟨valid_positionAt least.1, valid_positionAt greatest.1,
    positionAt_le_positionAt_iff.mpr min_le_max⟩

/-- An interval in order whose ends can be drawn is drawn by their offsets. -/
theorem stretch_offsets
    {interval : Interval}
    (ordered : interval.Ordered)
    (ends : interval.EndsIn (Drawn limit)) :
    PairInBounds limit (interval.start.offset, interval.stop.offset) ∧
      stretch (interval.start.offset, interval.stop.offset) = interval := by
  obtain ⟨start, stop⟩ := interval
  obtain ⟨⟨first, firstInBounds, rfl⟩, ⟨last, lastInBounds, rfl⟩⟩ := ends
  exact ⟨⟨firstInBounds, lastInBounds⟩,
    stretch_of_le (positionAt_le_positionAt_iff.mp ordered)⟩

end Stretch

section Draws

variable {draws : List (Int × Int)}

theorem mapM_interval_eq_ok_iff {intervals : List Interval} :
    draws.mapM (Sample.interval limit) = .ok intervals ↔
      (∀ draw ∈ draws, PairInBounds limit draw) ∧
        draws.map stretch = intervals := by
  induction draws generalizing intervals with
  | nil =>
      rw [List.mapM_nil, List.map_nil]
      simp [pure, Except.pure]
  | cons draw rest inductionHypothesis =>
      rw [List.mapM_cons, List.forall_mem_cons, List.map_cons]
      constructor
      · intro success
        obtain ⟨interval, drawn, success⟩ := steps_of_bind success
        obtain ⟨others, restDrawn, success⟩ := steps_of_bind success
        obtain ⟨inBounds, rfl⟩ := interval_eq_ok_iff.mp drawn
        obtain ⟨restInBounds, rfl⟩ := inductionHypothesis.mp restDrawn
        cases success
        exact ⟨⟨inBounds, restInBounds⟩, rfl⟩
      · rintro ⟨⟨inBounds, restInBounds⟩, rfl⟩
        rw [interval_eq_ok_iff.mpr ⟨inBounds, rfl⟩,
          inductionHypothesis.mpr ⟨restInBounds, rfl⟩]
        rfl

theorem range_eq_ok_iff {range : Range} :
    Sample.range limit sizeLimit draws = .ok range ↔
      ((draws.length : Int) ≤ sizeLimit ∧
        ∀ draw ∈ draws, PairInBounds limit draw) ∧
          Range.ofIntervals (draws.map stretch) = range := by
  unfold Sample.range
  split
  case isTrue tooMany =>
    constructor
    · rintro ⟨⟩
    · rintro ⟨⟨fits, -⟩, -⟩
      exact absurd tooMany (not_lt.mpr fits)
  case isFalse fits =>
    constructor
    · intro success
      obtain ⟨intervals, drawn, success⟩ := steps_of_bind success
      obtain ⟨inBounds, rfl⟩ := mapM_interval_eq_ok_iff.mp drawn
      cases success
      exact ⟨⟨not_lt.mp fits, inBounds⟩, rfl⟩
    · rintro ⟨⟨-, inBounds⟩, rfl⟩
      rw [mapM_interval_eq_ok_iff.mpr ⟨inBounds, rfl⟩]
      rfl

/-- What is drawn is canonical, has no more intervals than draws and ends where
something can be drawn. -/
theorem canonical_of_inBounds
    (inBounds : ∀ draw ∈ draws, PairInBounds limit draw) :
    (Range.ofIntervals (draws.map stretch)).Canonical ∧
      (Range.ofIntervals (draws.map stretch)).size ≤ draws.length ∧
      ∀ interval ∈ (Range.ofIntervals (draws.map stretch)).intervals,
        interval.EndsIn (Drawn limit) := by
  have valid : ∀ interval ∈ draws.map stretch, interval.Valid := by
    intro interval member
    obtain ⟨draw, drawMember, rfl⟩ := List.mem_map.mp member
    exact (inBounds draw drawMember).valid_stretch
  have ends : ∀ interval ∈ draws.map stretch,
      interval.EndsIn (Drawn limit) := by
    intro interval member
    obtain ⟨draw, drawMember, rfl⟩ := List.mem_map.mp member
    exact (inBounds draw drawMember).endsIn_stretch
  have size := Range.size_ofIntervals_le (draws.map stretch)
  rw [List.length_map] at size
  exact ⟨Range.canonical_ofIntervals valid, size,
    Range.endsIn_ofIntervals (Range.ordered_of_valid valid) ends⟩

/-- A canonical range is drawn by the offsets of its ends. -/
theorem exists_draws_of_canonical
    {range : Range}
    (canonical : range.Canonical)
    (ends : ∀ interval ∈ range.intervals, interval.EndsIn (Drawn limit)) :
    ∃ draws : List (Int × Int), draws.length = range.size ∧
      (∀ draw ∈ draws, PairInBounds limit draw) ∧
        Range.ofIntervals (draws.map stretch) = range := by
  have drawn : ∀ interval ∈ range.intervals,
      PairInBounds limit (interval.start.offset, interval.stop.offset) ∧
        stretch (interval.start.offset, interval.stop.offset) = interval := by
    intro interval member
    exact stretch_offsets (canonical.spaced.ordered interval member)
      (ends interval member)
  refine ⟨range.intervals.map fun interval =>
    (interval.start.offset, interval.stop.offset), List.length_map _, ?_, ?_⟩
  · rw [List.forall_mem_map]
    intro interval member
    exact (drawn interval member).1
  · have same : range.intervals.map (stretch ∘ fun interval =>
        (interval.start.offset, interval.stop.offset)) =
          range.intervals.map id :=
      List.map_congr_left fun interval member => (drawn interval member).2
    rw [List.map_map, same, List.map_id, canonical.ofIntervals_eq]

end Draws

/-- The samples are the valid values within the bounds. Exactly the draws
within bounds are accepted. The intervals that are drawn run from one sample
position to a later one or stay at it; they are valid, and do not depend on which
of their ends is drawn first. The ranges that are drawn are the canonical ones
that have no more intervals than the limit, all of whose ends are sample
positions. -/
theorem samples_are_valid_values (limit sizeLimit : Int) :
    (∀ draw, (∃ interval, Sample.interval limit draw = .ok interval) ↔
      PairInBounds limit draw) ∧
    {interval | ∃ draw, Sample.interval limit draw = .ok interval} =
      {interval | ∃ first last, 1 ≤ first ∧ first ≤ last ∧ last ≤ limit ∧
        interval = ⟨positionAt first, positionAt last⟩} ∧
    (∀ draw interval, Sample.interval limit draw = .ok interval →
      interval.Valid ∧ Sample.interval limit draw.swap = .ok interval) ∧
    (∀ draws, (∃ range, Sample.range limit sizeLimit draws = .ok range) ↔
      (draws.length : Int) ≤ sizeLimit ∧
        ∀ draw ∈ draws, PairInBounds limit draw) ∧
    {range | ∃ draws, Sample.range limit sizeLimit draws = .ok range} =
      {range | range.Canonical ∧ (range.size : Int) ≤ sizeLimit ∧
        ∀ interval ∈ range.intervals, interval.EndsIn (Drawn limit)} := by
  refine ⟨?_, ?_, ?_, ?_, ?_⟩
  · intro draw
    simp only [interval_eq_ok_iff, exists_and_left, exists_eq', and_true]
  · ext interval
    simp only [interval_eq_ok_iff, Set.mem_ofPred_eq]
    constructor
    · rintro ⟨draw, inBounds, rfl⟩
      obtain ⟨least, greatest⟩ := inBounds.min_max
      exact ⟨_, _, least.1, min_le_max, greatest.2, rfl⟩
    · rintro ⟨first, last, positive, ordered, bounded, rfl⟩
      exact ⟨(first, last),
        ⟨⟨positive, ordered.trans bounded⟩, positive.trans ordered, bounded⟩,
        stretch_of_le ordered⟩
  · intro draw interval success
    obtain ⟨inBounds, rfl⟩ := interval_eq_ok_iff.mp success
    exact ⟨inBounds.valid_stretch,
      interval_eq_ok_iff.mpr ⟨inBounds.swap, stretch_swap draw⟩⟩
  · intro draws
    simp only [range_eq_ok_iff, exists_and_left, exists_eq', and_true]
  · ext range
    simp only [range_eq_ok_iff, Set.mem_ofPred_eq]
    constructor
    · rintro ⟨draws, ⟨fits, inBounds⟩, rfl⟩
      obtain ⟨canonical, size, ends⟩ := canonical_of_inBounds inBounds
      exact ⟨canonical, le_trans (Int.ofNat_le.mpr size) fits, ends⟩
    · rintro ⟨canonical, size, ends⟩
      obtain ⟨draws, length, inBounds, drawn⟩ :=
        exists_draws_of_canonical canonical ends
      exact ⟨draws, ⟨length ▸ size, inBounds⟩, drawn⟩

/-- Two characters and, at the limit, an empty interval on the next line. -/
def upToLimit : Range :=
  ⟨[⟨positionAt 1, positionAt 3⟩, ⟨positionAt 12, positionAt 12⟩]⟩

/-- Two offsets in falling order, a range that reaches the limit, and two draws
where only one is allowed. -/
theorem samples_are_valid_values_up_to_limit :
    Sample.interval 12 (9, 2) = .ok ⟨positionAt 2, positionAt 9⟩ ∧
    (Interval.mk (positionAt 2) (positionAt 9)).Valid ∧
    Sample.interval 12 (2, 9) = .ok ⟨positionAt 2, positionAt 9⟩ ∧
    upToLimit.Canonical ∧
    (∃ draws, Sample.range 12 2 draws = .ok upToLimit) ∧
    ¬∃ range, Sample.range 12 1 [(1, 3), (12, 12)] = .ok range := by
  obtain ⟨-, -, intervals, -, ranges⟩ := samples_are_valid_values 12 2
  obtain ⟨-, -, -, accepted, -⟩ := samples_are_valid_values 12 1
  have falling : Sample.interval 12 (9, 2) =
      .ok ⟨positionAt 2, positionAt 9⟩ := rfl
  obtain ⟨valid, rising⟩ := intervals _ _ falling
  have canonical : upToLimit.Canonical := by decide
  have ends : ∀ interval ∈ upToLimit.intervals,
      interval.EndsIn (Drawn 12) := by
    simp only [upToLimit, List.forall_mem_cons]
    exact ⟨⟨⟨1, by decide, rfl⟩, ⟨3, by decide, rfl⟩⟩,
      ⟨⟨12, by decide, rfl⟩, ⟨12, by decide, rfl⟩⟩, by simp⟩
  refine ⟨falling, valid, rising, canonical, ?_, ?_⟩
  · exact (Set.ext_iff.mp ranges upToLimit).mpr ⟨canonical, by decide, ends⟩
  · rw [accepted]
    decide

end Sample

end Locus
