import Locus.Proofs.Range.Survivors
import Locus.Proofs.Range.Transport
import Mathlib.Order.Bounds.Basic

/-!
# The hull as a least upper bound

The hull of two intervals runs from the first to the last of their four ends,
listed in ascending order with ties kept as they are. So it contains all four
ends, and every interval that contains them contains the hull. An interval whose
ends are out of order has the hulls that it would have with its ends exchanged,
up to ties, and the laws of intervals in order carry over.
-/

namespace Locus

namespace Position

theorem earlier_eq_ite (first second : Position) :
    first.earlier second = if first ≤ second then first else second := by
  split
  case isTrue ordered => exact earlier_of_le ordered
  case isFalse notOrdered => exact if_pos (Std.not_le.mp notOrdered)

theorem later_eq_ite (first second : Position) :
    first.later second = if first ≤ second then second else first := by
  split
  case isTrue ordered => exact later_of_le ordered
  case isFalse notOrdered => exact if_pos (Std.not_le.mp notOrdered)

section Ascending

variable (position : Position) (rest : List Position)

/-- Sorting puts a position between those that are strictly before it and those
that it is tied with or before. -/
theorem exists_ascending_cons_eq_append :
    ∃ before after : List Position,
      ascending (position :: rest) = before ++ position :: after ∧
      ascending rest = before ++ after ∧
      (∀ other ∈ before, other < position) ∧
      (∀ other ∈ after, position ≤ other) := by
  obtain ⟨sorted, remaining⟩ := ascending_cons position rest
  refine ⟨_, _, sorted, remaining, ?_, ?_⟩
  · intro other member
    have notBefore := (List.mem_filter.mp member).2
    rw [Bool.not_eq_true'] at notBefore
    rw [← Std.not_le]
    exact Bool.eq_false_iff.mp notBefore
  · intro other member
    exact (List.mem_filter.mp member).2

/-- The first of the least positions is found from the back, one by one. -/
theorem head?_ascending_cons :
    (ascending (position :: rest)).head? =
      Option.merge earlier (some position) (ascending rest).head? := by
  obtain ⟨before, after, sorted, remaining, precede, follow⟩ :=
    exists_ascending_cons_eq_append position rest
  rw [sorted, remaining]
  cases before with
  | nil =>
      cases after with
      | nil => rfl
      | cons next _ =>
          exact congrArg some (earlier_of_le (follow next (by simp))).symm
  | cons first _ => exact congrArg some (if_pos (precede first (by simp))).symm

/-- The last of the greatest positions is found from the back, one by one. -/
theorem getLast?_ascending_cons :
    (ascending (position :: rest)).getLast? =
      Option.merge later (some position) (ascending rest).getLast? := by
  obtain ⟨before, after, sorted, remaining, precede, follow⟩ :=
    exists_ascending_cons_eq_append position rest
  rw [sorted, remaining, List.getLast?_append, List.getLast?_append,
    List.getLast?_cons]
  cases lastAfter : after.getLast? with
  | some last =>
      have ordered := follow last (List.mem_of_getLast? lastAfter)
      exact congrArg some (later_of_le ordered).symm
  | none =>
      cases lastBefore : before.getLast? with
      | none => rfl
      | some last =>
          have less := precede last (List.mem_of_getLast? lastBefore)
          exact congrArg some (if_pos less).symm

end Ascending

section Ends

variable {positions : List Position} {position : Position}

/-- What comes first in ascending order is a least one of the positions. -/
theorem isLeast_of_head?_ascending
    (first : (ascending positions).head? = some position) :
    IsLeast {other | other ∈ positions} position := by
  obtain ⟨rest, sorted⟩ := List.head?_eq_some_iff.mp first
  have inOrder := pairwise_ascending positions
  rw [sorted] at inOrder
  constructor
  · exact mem_ascending.mp (List.mem_of_head? first)
  · intro other member
    change other ∈ positions at member
    rw [← mem_ascending, sorted, List.mem_cons] at member
    rcases member with rfl | later
    · exact le_refl _
    · exact List.rel_of_pairwise_cons inOrder later

/-- What comes last in ascending order is a greatest one of the positions. -/
theorem isGreatest_of_getLast?_ascending
    (last : (ascending positions).getLast? = some position) :
    IsGreatest {other | other ∈ positions} position := by
  obtain ⟨front, sorted⟩ := List.getLast?_eq_some_iff.mp last
  have inOrder := pairwise_ascending positions
  rw [sorted, List.pairwise_append] at inOrder
  constructor
  · exact mem_ascending.mp (List.mem_of_getLast? last)
  · intro other member
    change other ∈ positions at member
    rw [← mem_ascending, sorted, List.mem_append, List.mem_singleton] at member
    rcases member with earlier | rfl
    · exact inOrder.2.2 other earlier position (by simp)
    · exact le_refl _

end Ends

end Position

namespace Interval

open Sample (positionAt)
open Range (unbrokenAt)

variable {left right outer : Interval}

/-- A position lies between the ends, which count too. -/
def Contains (interval : Interval) (position : Position) : Prop :=
  interval.start ≤ position ∧ position ≤ interval.stop

instance (interval : Interval) (position : Position) :
    Decidable (interval.Contains position) :=
  inferInstanceAs (Decidable (_ ∧ _))

/-- The ends of two intervals, the starts before the stops. -/
def endsOf (left right : Interval) : List Position :=
  [left.start, right.start, left.stop, right.stop]

/-- The interval between the same ends in order. -/
def upright (interval : Interval) : Interval :=
  spanning interval.start interval.stop

theorem ordered_upright (interval : Interval) : interval.upright.Ordered :=
  spanning_ordered interval.start interval.stop

theorem upright_of_ordered
    {interval : Interval}
    (ordered : interval.Ordered) :
    interval.upright = interval :=
  spanning_of_le ordered

/-- The hull starts at the first of the four ends in ascending order. -/
theorem head?_ascending_endsOf (left right : Interval) :
    (ascending (endsOf left right)).head? = some (left.hull right).start := by
  simp only [endsOf, Position.head?_ascending_cons]
  simp only [ascending, List.mergeSort_nil, List.head?_nil, hull,
    Position.earlier_assoc]
  rfl

/-- The hull stops at the last of the four ends in ascending order. -/
theorem getLast?_ascending_endsOf (left right : Interval) :
    (ascending (endsOf left right)).getLast? = some (left.hull right).stop := by
  simp only [endsOf, Position.getLast?_ascending_cons]
  simp only [ascending, List.mergeSort_nil, List.getLast?_nil, hull,
    Position.later_assoc]
  rfl

theorem isLeast_start_hull (left right : Interval) :
    IsLeast {place | place ∈ endsOf left right} (left.hull right).start :=
  Position.isLeast_of_head?_ascending (head?_ascending_endsOf left right)

theorem isGreatest_stop_hull (left right : Interval) :
    IsGreatest {place | place ∈ endsOf left right} (left.hull right).stop :=
  Position.isGreatest_of_getLast?_ascending
    (getLast?_ascending_endsOf left right)

/-- The hull contains the four ends. -/
theorem contains_hull
    {place : Position}
    (member : place ∈ endsOf left right) :
    (left.hull right).Contains place :=
  ⟨(isLeast_start_hull left right).2 member,
    (isGreatest_stop_hull left right).2 member⟩

/-- An interval that contains the four ends contains the hull, since the ends of
the hull are among them. -/
theorem within_of_contains
    (contains : ∀ place ∈ endsOf left right, outer.Contains place) :
    (left.hull right).Within outer :=
  ⟨(contains _ (isLeast_start_hull left right).1).1,
    (contains _ (isGreatest_stop_hull left right).1).2⟩

/-- Up to ties the hull asks for the least and the greatest end only, so it does
not matter which end is the start. -/
theorem hull_equiv_hull_upright (left right : Interval) :
    left.hull right ≈ left.upright.hull right.upright := by
  rw [hull_of_ordered left.ordered_upright right.ordered_upright, equiv_iff,
    Position.equiv_iff, Position.equiv_iff]
  simp only [hull, upright, spanning, Position.toPoint_earlier,
    Position.toPoint_later]
  constructor <;> ac_rfl

theorem hull_comm (left right : Interval) :
    left.hull right ≈ right.hull left := by
  rw [equiv_iff, Position.equiv_iff, Position.equiv_iff]
  simp only [hull, Position.toPoint_earlier, Position.toPoint_later]
  constructor <;> ac_rfl

theorem hull_assoc_of_ordered
    {first second third : Interval}
    (firstOrdered : first.Ordered)
    (secondOrdered : second.Ordered)
    (thirdOrdered : third.Ordered) :
    (first.hull second).hull third = first.hull (second.hull third) := by
  rw [hull_eq_join (ordered_hull first second) thirdOrdered,
    hull_eq_join firstOrdered (ordered_hull second third),
    hull_eq_join firstOrdered secondOrdered,
    hull_eq_join secondOrdered thirdOrdered]
  exact Std.Associative.assoc first second third

theorem hull_assoc (first second third : Interval) :
    (first.hull second).hull third ≈ first.hull (second.hull third) :=
  calc
    (first.hull second).hull third
      ≈ (first.hull second).upright.hull third.upright :=
        hull_equiv_hull_upright _ third
    _ = (first.hull second).hull third.upright := by
        rw [upright_of_ordered (ordered_hull first second)]
    _ ≈ (first.upright.hull second.upright).hull third.upright :=
        hull_congr (hull_equiv_hull_upright first second) (Setoid.refl _)
    _ = first.upright.hull (second.upright.hull third.upright) :=
        hull_assoc_of_ordered first.ordered_upright second.ordered_upright
          third.ordered_upright
    _ ≈ first.upright.hull (second.hull third) :=
        hull_congr (Setoid.refl _)
          (Setoid.symm (hull_equiv_hull_upright second third))
    _ = first.upright.hull (second.hull third).upright := by
        rw [upright_of_ordered (ordered_hull second third)]
    _ ≈ first.hull (second.hull third) :=
        Setoid.symm (hull_equiv_hull_upright first _)

theorem hull_self_equiv_iff {interval : Interval} :
    interval.hull interval ≈ interval ↔ interval.Ordered := by
  constructor
  · intro same
    rw [equiv_iff, Position.equiv_iff_le_and_le,
      Position.equiv_iff_le_and_le] at same
    exact le_trans same.1.2 (le_trans (ordered_hull interval interval) same.2.1)
  · intro ordered
    calc
      interval.hull interval = interval := by
        rw [hull_of_ordered ordered ordered, Position.earlier_of_le (le_refl _),
          Position.later_of_le (le_refl _)]
      _ ≈ interval := Setoid.refl interval

/-- The hull is in order and contains the four ends, and every interval that
contains them contains it: it runs from the first to the last of them in
ascending order. The hull of valid intervals is valid. It takes a tied start
from the left and a tied stop from the right. Up to ties the hull is commutative
and associative, and on the intervals in order it is idempotent. On valid
intervals it is associative in lines and columns too. -/
theorem hull_is_least_upper_bound :
    (∀ left right : Interval,
      (left.hull right).start ≤ (left.hull right).stop ∧
      (∀ place ∈ endsOf left right, (left.hull right).Contains place) ∧
      (∀ outer : Interval,
        (∀ place ∈ endsOf left right, outer.Contains place) →
          outer.start ≤ (left.hull right).start ∧
            (left.hull right).stop ≤ outer.stop) ∧
      (ascending (endsOf left right)).head? = some (left.hull right).start ∧
      (ascending (endsOf left right)).getLast? =
        some (left.hull right).stop) ∧
    (∀ left right : Interval, left.Valid → right.Valid →
      (left.hull right).Valid ∧
      (left.hull right).start =
        (if left.start ≤ right.start then left.start else right.start) ∧
      (left.hull right).stop =
        (if left.stop ≤ right.stop then right.stop else left.stop)) ∧
    (∀ left right : Interval, left.hull right ≈ right.hull left) ∧
    (∀ first second third : Interval,
      (first.hull second).hull third ≈ first.hull (second.hull third)) ∧
    (∀ interval : Interval,
      interval.hull interval ≈ interval ↔ interval.start ≤ interval.stop) ∧
    (∀ first second third : Interval,
      first.Valid → second.Valid → third.Valid →
        (first.hull second).hull third = first.hull (second.hull third)) := by
  refine ⟨?_, ?_, hull_comm, hull_assoc, fun _ => hull_self_equiv_iff, ?_⟩
  · intro left right
    exact ⟨ordered_hull left right, fun _ => contains_hull,
      fun _ => within_of_contains, head?_ascending_endsOf left right,
      getLast?_ascending_endsOf left right⟩
  · intro left right leftValid rightValid
    have joined := hull_eq_join leftValid.ordered rightValid.ordered
    refine ⟨valid_hull leftValid rightValid, ?_, ?_⟩
    · rw [joined]
      exact Position.earlier_eq_ite left.start right.start
    · rw [joined]
      exact Position.later_eq_ite left.stop right.stop
  · intro first second third firstValid secondValid thirdValid
    exact hull_assoc_of_ordered firstValid.ordered secondValid.ordered
      thirdValid.ordered

/-- Two characters in a text. -/
def secondLine : Interval :=
  ⟨positionAt 11, positionAt 13⟩

/-- A stretch between the same points, where the text has no line breaks. -/
def sameOnOneLine : Interval :=
  ⟨unbrokenAt 11, unbrokenAt 13⟩

/-- An interval with its ends exchanged. -/
def reversed : Interval :=
  ⟨positionAt 12, positionAt 5⟩

/-- The reversed interval is no hull of itself, but its hull with another one
lies inside whatever contains both. Of tied ends the start is taken from the
left and the stop from the right. -/
theorem hull_is_least_upper_bound_of_reversed :
    positionAt 5 ∈ endsOf reversed secondLine ∧
    (reversed.hull secondLine).Contains (positionAt 5) ∧
    (∀ place ∈ endsOf reversed secondLine,
      (Interval.mk (positionAt 5) (positionAt 13)).Contains place) ∧
    (reversed.hull secondLine).stop ≤ positionAt 13 ∧
    ¬reversed.hull reversed ≈ reversed ∧
    secondLine.Valid ∧ sameOnOneLine.Valid ∧
    (secondLine.hull sameOnOneLine).start = positionAt 11 ∧
    (secondLine.hull sameOnOneLine).stop = unbrokenAt 13 ∧
    (sameOnOneLine.hull secondLine).hull sameOnOneLine =
      sameOnOneLine.hull (secondLine.hull sameOnOneLine) := by
  obtain ⟨bound, ofValid, -, -, idempotent, assoc⟩ :=
    hull_is_least_upper_bound
  obtain ⟨-, contains, least, -, -⟩ := bound reversed secondLine
  have member : positionAt 5 ∈ endsOf reversed secondLine := by decide
  have contained : ∀ place ∈ endsOf reversed secondLine,
      (Interval.mk (positionAt 5) (positionAt 13)).Contains place := by
    decide
  have valid : secondLine.Valid := by decide
  have sameValid : sameOnOneLine.Valid := by decide
  obtain ⟨-, start, stop⟩ := ofValid _ _ valid sameValid
  refine ⟨member, contains _ member, contained, (least _ contained).2, ?_,
    valid, sameValid, start.trans (if_pos (by decide)),
    stop.trans (if_pos (by decide)), assoc _ _ _ sameValid valid sameValid⟩
  rw [idempotent]
  decide

end Interval

end Locus
