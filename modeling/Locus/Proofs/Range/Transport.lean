import Locus.Proofs.Range.Equivalence
import Locus.Range.Normal
import Locus.Range.Union

/-!
# Locations moved along an order

A function on positions moves intervals and ranges by their ends. Operations on
locations only compare positions and pick some of them, so they commute with
every function that keeps the order of positions, on any operands. Lines and
columns can be overwritten without touching the order: operands that differ in
nothing else have results that differ in nothing else.
-/

namespace Locus

namespace Position

/-- The function puts positions in the order they were in. -/
def KeepsOrder (move : Position → Position) : Prop :=
  ∀ first second, first < second ↔ move first < move second

/-- The position without its line and column. -/
def bare (position : Position) : Position where
  toPoint := position.toPoint
  line := 0
  column := 0

theorem keepsOrder_bare : KeepsOrder bare :=
  fun _ _ => Iff.rfl

theorem bare_eq_iff {first second : Position} :
    first.bare = second.bare ↔ first ≈ second := by
  rw [equiv_iff, bare, bare, mk.injEq]
  simp

section KeepsOrder

variable {move : Position → Position} (keeps : KeepsOrder move)

include keeps

theorem KeepsOrder.compare_eq (first second : Position) :
    compare (move first) (move second) = compare first second := by
  cases order : compare first second with
  | lt => exact (keeps first second).mp order
  | gt =>
      rw [Std.OrientedCmp.gt_iff_lt] at order ⊢
      exact (keeps second first).mp order
  | eq =>
      have notLess : ¬move first < move second := by
        rw [← keeps]
        exact (equiv_iff_le_and_le.mp order).2.not_gt
      have notGreater : ¬move second < move first := by
        rw [← keeps]
        exact (equiv_iff_le_and_le.mp order).1.not_gt
      exact equiv_iff_le_and_le.mpr
        ⟨Std.not_lt.mp notGreater, Std.not_lt.mp notLess⟩

theorem KeepsOrder.earlier (first second : Position) :
    (move first).earlier (move second) = move (first.earlier second) := by
  rw [Position.earlier, Position.earlier, apply_ite move]
  simp only [← keeps second first]

theorem KeepsOrder.later (first second : Position) :
    (move first).later (move second) = move (first.later second) := by
  rw [Position.later, Position.later, apply_ite move]
  simp only [← keeps second first]

end KeepsOrder

end Position

namespace Interval

/-- The interval with both ends moved. -/
def map (move : Position → Position) (interval : Interval) : Interval where
  start := move interval.start
  stop := move interval.stop

theorem map_bare_eq_iff {first second : Interval} :
    first.map Position.bare = second.map Position.bare ↔ first ≈ second := by
  rw [map, map, mk.injEq, Position.bare_eq_iff, Position.bare_eq_iff,
    equiv_iff]

section KeepsOrder

variable {move : Position → Position} (keeps : Position.KeepsOrder move)

include keeps

theorem compare_map (first second : Interval) :
    compare (first.map move) (second.map move) = compare first second := by
  change (compare (move first.start) (move second.start)).then
    (compare (move first.stop) (move second.stop)) = _
  rw [keeps.compare_eq, keeps.compare_eq]
  rfl

theorem stop_lt_start_map {first second : Interval} :
    (first.map move).stop < (second.map move).start ↔
      first.stop < second.start :=
  (keeps first.stop second.start).symm

theorem stop_lt_stop_map {first second : Interval} :
    (first.map move).stop < (second.map move).stop ↔
      first.stop < second.stop :=
  (keeps first.stop second.stop).symm

theorem hull_map (left right : Interval) :
    (left.map move).hull (right.map move) = (left.hull right).map move := by
  simp only [hull, map, keeps.earlier, keeps.later]

theorem spanning_map (first second : Position) :
    spanning (move first) (move second) = (spanning first second).map move := by
  rw [spanning, keeps.earlier, keeps.later]
  rfl

end KeepsOrder

/-- Intervals that differ in lines and columns have hulls that do. -/
theorem hull_congr
    {left right otherLeft otherRight : Interval}
    (lefts : left ≈ otherLeft)
    (rights : right ≈ otherRight) :
    left.hull right ≈ otherLeft.hull otherRight := by
  have keeps := Position.keepsOrder_bare
  rw [← map_bare_eq_iff] at lefts rights ⊢
  rw [← hull_map keeps, lefts, rights, hull_map keeps]

end Interval

namespace Range

/-- The range with all ends moved. -/
def map (move : Position → Position) (range : Range) : Range :=
  ⟨range.intervals.map (Interval.map move)⟩

theorem map_bare_list_eq_iff {firsts seconds : List Interval} :
    firsts.map (Interval.map Position.bare) =
        seconds.map (Interval.map Position.bare) ↔
      List.Forall₂ (· ≈ ·) firsts seconds := by
  rw [← List.forall₂_eq_eq_eq, List.forall₂_map_left_iff,
    List.forall₂_map_right_iff]
  simp only [Interval.map_bare_eq_iff]

theorem map_bare_eq_iff {first second : Range} :
    first.map Position.bare = second.map Position.bare ↔ first ≈ second := by
  rw [equiv_iff, ← map_bare_list_eq_iff, map, map, mk.injEq]

/-- The outer bound looks at no order. -/
theorem outer?_map (move : Position → Position) (range : Range) :
    (range.map move).outer? = range.outer?.map (Interval.map move) := by
  obtain ⟨intervals⟩ := range
  simp only [outer?, start?, stop?, map, List.head?_map, List.getLast?_map,
    Option.map_map]
  cases intervals.head? <;> cases intervals.getLast? <;> rfl

section KeepsOrder

variable {move : Position → Position} (keeps : Position.KeepsOrder move)

include keeps

/-- The two sweeps move on together. -/
theorem sweep_map (lefts rights : List Interval) :
    sweep (lefts.map (Interval.map move)) (rights.map (Interval.map move)) =
      (sweep lefts rights).map (Interval.map move) := by
  fun_induction sweep lefts rights with
  | case1 rights => simp
  | case2 left leftRest => simp
  | case3 left leftRest right rightRest before inductionHypothesis =>
      rw [← Interval.stop_lt_start_map keeps] at before
      rw [List.map_cons] at inductionHypothesis
      rw [List.map_cons, List.map_cons, sweep, if_pos before,
        inductionHypothesis, List.map_cons]
  | case4 left leftRest right rightRest notBefore after
      inductionHypothesis =>
      rw [← Interval.stop_lt_start_map keeps] at notBefore after
      rw [List.map_cons] at inductionHypothesis
      rw [List.map_cons, List.map_cons, sweep, if_neg notBefore,
        if_pos after, inductionHypothesis, List.map_cons]
  | case5 left leftRest right rightRest notBefore notAfter shorter
      inductionHypothesis =>
      rw [← Interval.stop_lt_start_map keeps] at notBefore notAfter
      rw [← Interval.stop_lt_stop_map keeps] at shorter
      rw [List.map_cons, ← Interval.hull_map keeps] at inductionHypothesis
      rw [List.map_cons, List.map_cons, sweep, if_neg notBefore,
        if_neg notAfter, if_pos shorter, inductionHypothesis]
  | case6 left leftRest right rightRest notBefore notAfter notShorter
      inductionHypothesis =>
      rw [← Interval.stop_lt_start_map keeps] at notBefore notAfter
      rw [← Interval.stop_lt_stop_map keeps] at notShorter
      rw [List.map_cons, ← Interval.hull_map keeps] at inductionHypothesis
      rw [List.map_cons, List.map_cons, sweep, if_neg notBefore,
        if_neg notAfter, if_neg notShorter, inductionHypothesis]

theorem union_map (left right : Range) :
    left.map move ∪ right.map move = (left ∪ right).map move :=
  congrArg mk (sweep_map keeps left.intervals right.intervals)

theorem ascending_map (intervals : List Interval) :
    ascending (intervals.map (Interval.map move)) =
      (ascending intervals).map (Interval.map move) := by
  symm
  apply List.map_mergeSort
  intro first _ second _
  rw [Interval.compare_map keeps]

theorem coalesce_map (pending : Interval) (rest : List Interval) :
    coalesce (pending.map move) (rest.map (Interval.map move)) =
      (coalesce pending rest).map (Interval.map move) := by
  fun_induction coalesce pending rest with
  | case1 pending => rfl
  | case2 pending next rest gap inductionHypothesis =>
      rw [← Interval.stop_lt_start_map keeps] at gap
      rw [List.map_cons, coalesce, if_pos gap, inductionHypothesis,
        List.map_cons]
  | case3 pending next rest noGap inductionHypothesis =>
      rw [← Interval.stop_lt_start_map keeps] at noGap
      rw [List.map_cons, coalesce, if_neg noGap, Interval.hull_map keeps,
        inductionHypothesis]

theorem ofIntervals_map (intervals : List Interval) :
    ofIntervals (intervals.map (Interval.map move)) =
      (ofIntervals intervals).map move := by
  rw [ofIntervals, ofIntervals, map, ascending_map keeps]
  cases ascending intervals with
  | nil => rfl
  | cons pending rest => exact congrArg mk (coalesce_map keeps pending rest)

theorem between_map (first second : Position) :
    between (move first) (move second) = (between first second).map move := by
  rw [between, Interval.spanning_map keeps]
  rfl

end KeepsOrder

section Bare

variable {left right otherLeft otherRight : Range}

theorem union_congr
    (lefts : left ≈ otherLeft)
    (rights : right ≈ otherRight) :
    left ∪ right ≈ otherLeft ∪ otherRight := by
  have keeps := Position.keepsOrder_bare
  rw [← map_bare_eq_iff] at lefts rights ⊢
  rw [← union_map keeps, lefts, rights, union_map keeps]

theorem ofIntervals_congr
    {intervals others : List Interval}
    (equivalent : List.Forall₂ (· ≈ ·) intervals others) :
    ofIntervals intervals ≈ ofIntervals others := by
  have keeps := Position.keepsOrder_bare
  rw [← map_bare_list_eq_iff] at equivalent
  rw [← map_bare_eq_iff, ← ofIntervals_map keeps, equivalent,
    ofIntervals_map keeps]

theorem between_congr
    {first second otherFirst otherSecond : Position}
    (firsts : first ≈ otherFirst)
    (seconds : second ≈ otherSecond) :
    between first second ≈ between otherFirst otherSecond := by
  have keeps := Position.keepsOrder_bare
  rw [← Position.bare_eq_iff] at firsts seconds
  rw [← map_bare_eq_iff, ← between_map keeps, firsts, seconds,
    between_map keeps]

/-- Equivalent ranges have equivalent outer bounds, or none both. -/
theorem outer?_congr (equivalent : left ≈ right) :
    Option.Rel (· ≈ ·) left.outer? right.outer? := by
  have bounds : left.outer?.map (Interval.map Position.bare) =
      right.outer?.map (Interval.map Position.bare) := by
    rw [← outer?_map, ← outer?_map, map_bare_eq_iff.mpr equivalent]
  cases leftOuter : left.outer? <;> cases rightOuter : right.outer? <;>
    simp only [leftOuter, rightOuter, Option.map_none, Option.map_some,
      Option.some.injEq, reduceCtorEq] at bounds
  · exact .none
  · exact .some (Interval.map_bare_eq_iff.mp bounds)

end Bare

end Range

end Locus
