import Locus.Proofs.Interval.UpperBound
import Locus.Proofs.Range.Normal

/-!
# The sweep with two cursors

The sweep needs no new lists for its operands. A cursor stands in each of them,
and every turn compares the intervals at the cursors. One of the two is done
then: it is passed on, or the other one is overwritten by the hull of both. No
turn asks for a place beyond the end of an operand, and each leaves one interval
less, so the turns can be counted beforehand. What is still to be swept stays
the same in every turn, whether or not the operands are sorted or their
intervals in order.
-/

namespace Locus

namespace Interval

/-- The ends of a hull are ends of its two intervals, even if these are not in
order. -/
theorem endsIn_hull_of_endsIn
    {pool : Position → Prop}
    {left right : Interval}
    (leftEnds : left.EndsIn pool)
    (rightEnds : right.EndsIn pool) :
    (left.hull right).EndsIn pool := by
  have inPool : ∀ place ∈ endsOf left right, pool place := by
    simp [endsOf, leftEnds.1, leftEnds.2, rightEnds.1, rightEnds.2]
  exact ⟨inPool _ (isLeast_start_hull left right).1,
    inPool _ (isGreatest_stop_hull left right).1⟩

end Interval

namespace Range

open Sample (positionAt)

/-- A list has no such place. -/
structure Stray where
  /-- The place that was asked for. -/
  index : Nat
  /-- How many places the list has. -/
  size : Nat
  deriving DecidableEq

/-- The interval at a place of a list. -/
def fetch (intervals : List Interval) (index : Nat) : Except Stray Interval :=
  match intervals[index]? with
  | some interval => .ok interval
  | none => .error ⟨index, intervals.length⟩

/-- The list with another interval at a place. -/
def overwrite (intervals : List Interval) (index : Nat) (interval : Interval) :
    Except Stray (List Interval) :=
  if index < intervals.length then
    .ok (intervals.set index interval)
  else
    .error ⟨index, intervals.length⟩

/-- A sweep under way. -/
structure Cursors where
  /-- The left operand, as far as it has been overwritten. -/
  lefts : List Interval
  /-- The right operand, as far as it has been overwritten. -/
  rights : List Interval
  /-- The cursor of the left operand. -/
  leftAt : Nat
  /-- The cursor of the right operand. -/
  rightAt : Nat
  /-- The intervals that have been passed on. -/
  passed : List Interval
  deriving DecidableEq

namespace Cursors

/-- Both cursors stand at the front. -/
def start (left right : Range) : Cursors where
  lefts := left.intervals
  rights := right.intervals
  leftAt := 0
  rightAt := 0
  passed := []

/-- Neither cursor has reached the end of its operand. -/
def Running (cursors : Cursors) : Prop :=
  cursors.leftAt < cursors.lefts.length ∧
    cursors.rightAt < cursors.rights.length

instance (cursors : Cursors) : Decidable cursors.Running :=
  inferInstanceAs (Decidable (_ ∧ _))

/-- Compare the intervals at the cursors, and move the cursor of the one that
is done. -/
def turn (cursors : Cursors) : Except Stray Cursors := do
  let left ← fetch cursors.lefts cursors.leftAt
  let right ← fetch cursors.rights cursors.rightAt
  if left.stop < right.start then
    return { cursors with
      leftAt := cursors.leftAt + 1
      passed := cursors.passed ++ [left] }
  else if right.stop < left.start then
    return { cursors with
      rightAt := cursors.rightAt + 1
      passed := cursors.passed ++ [right] }
  else if left.stop < right.stop then
    let rights ← overwrite cursors.rights cursors.rightAt (left.hull right)
    return { cursors with
      rights := rights
      leftAt := cursors.leftAt + 1 }
  else
    let lefts ← overwrite cursors.lefts cursors.leftAt (left.hull right)
    return { cursors with
      lefts := lefts
      rightAt := cursors.rightAt + 1 }

/-- What has been passed on, followed by what is left of the operands. -/
def result (cursors : Cursors) : List Interval :=
  cursors.passed ++ cursors.lefts.drop cursors.leftAt ++
    cursors.rights.drop cursors.rightAt

/-- Take turns until a cursor reaches the end. There is no result if the turns
do not suffice. -/
def run (turns : Nat) (cursors : Cursors) :
    Except Stray (Option (List Interval)) :=
  if cursors.Running then
    match turns with
    | 0 => .ok none
    | turns + 1 => do
        let next ← cursors.turn
        next.run turns
  else
    .ok (some cursors.result)

/-- How many intervals are not done. -/
def remaining (cursors : Cursors) : Nat :=
  (cursors.lefts.length - cursors.leftAt) +
    (cursors.rights.length - cursors.rightAt)

/-- What has been passed on, followed by the sweep of what is left. -/
def swept (cursors : Cursors) : List Interval :=
  cursors.passed ++ sweep (cursors.lefts.drop cursors.leftAt)
    (cursors.rights.drop cursors.rightAt)

end Cursors

section Places

variable {intervals : List Interval} {index : Nat}
variable (inside : index < intervals.length)

theorem fetch_of_lt : fetch intervals index = .ok intervals[index] := by
  rw [fetch, List.getElem?_eq_getElem inside]

include inside in
theorem overwrite_of_lt (interval : Interval) :
    overwrite intervals index interval = .ok (intervals.set index interval) :=
  if_pos inside

include inside in
/-- What stands behind the place is not touched. -/
theorem drop_set_eq_cons (interval : Interval) :
    (intervals.set index interval).drop index =
      interval :: intervals.drop (index + 1) := by
  have stillInside : index < (intervals.set index interval).length := by
    rw [List.length_set]
    exact inside
  rw [List.drop_eq_getElem_cons stillInside, List.getElem_set_self,
    List.drop_set_of_lt (Nat.lt_succ_self index)]

end Places

namespace Cursors

variable {cursors : Cursors}

/-- A turn finds both intervals, is done with one of them, and leaves the same
to be swept. -/
theorem exists_turn (running : cursors.Running) :
    ∃ next, cursors.turn = .ok next ∧
      next.remaining + 1 = cursors.remaining ∧ next.swept = cursors.swept := by
  obtain ⟨lefts, rights, leftAt, rightAt, passed⟩ := cursors
  obtain ⟨leftInside, rightInside⟩ := running
  dsimp only at leftInside rightInside
  have leftFetched := fetch_of_lt leftInside
  have rightFetched := fetch_of_lt rightInside
  have leftSplit := List.drop_eq_getElem_cons leftInside
  have rightSplit := List.drop_eq_getElem_cons rightInside
  generalize lefts[leftAt] = left at leftFetched leftSplit
  generalize rights[rightAt] = right at rightFetched rightSplit
  simp only [turn, remaining, swept, leftFetched, rightFetched, leftSplit,
    rightSplit, bind, Except.bind]
  rw [sweep]
  split_ifs with before after shorter
  · refine ⟨_, rfl, ?_, ?_⟩
    · dsimp only
      omega
    · dsimp only
      rw [rightSplit, List.append_assoc, List.singleton_append]
  · refine ⟨_, rfl, ?_, ?_⟩
    · dsimp only
      omega
    · dsimp only
      rw [leftSplit, List.append_assoc, List.singleton_append]
  · rw [overwrite_of_lt rightInside]
    refine ⟨_, rfl, ?_, ?_⟩
    · dsimp only
      rw [List.length_set]
      omega
    · rw [drop_set_eq_cons rightInside]
  · rw [overwrite_of_lt leftInside]
    refine ⟨_, rfl, ?_, ?_⟩
    · dsimp only
      rw [List.length_set]
      omega
    · rw [drop_set_eq_cons leftInside]

/-- When a cursor is at the end, nothing is left to be merged. -/
theorem result_eq_swept (ended : ¬cursors.Running) :
    cursors.result = cursors.swept := by
  rw [result, swept, List.append_assoc]
  rw [Running, not_and_or, not_lt, not_lt] at ended
  rcases ended with leftEnded | rightEnded
  · rw [List.drop_eq_nil_of_le leftEnded, sweep_nil_left, List.nil_append]
  · rw [List.drop_eq_nil_of_le rightEnded, sweep_nil_right, List.append_nil]

/-- A run ends with one interval left at the latest, and its result is the
sweep. -/
theorem run_eq_swept
    {turns : Nat}
    (enough : cursors.remaining ≤ turns + 1) :
    cursors.run turns = .ok (some cursors.swept) := by
  induction turns generalizing cursors with
  | zero =>
      have ended : ¬cursors.Running := by
        rintro ⟨leftInside, rightInside⟩
        rw [remaining] at enough
        omega
      rw [run, if_neg ended, result_eq_swept ended]
  | succ turns inductionHypothesis =>
      by_cases running : cursors.Running
      · obtain ⟨next, turned, fewer, same⟩ := exists_turn running
        rw [run, if_pos running, turned, ← same]
        exact inductionHypothesis (by omega)
      · rw [run, if_neg running, result_eq_swept running]

theorem run_start
    {left right : Range}
    {turns : Nat}
    (enough : left.size + right.size ≤ turns + 1) :
    (start left right).run turns = .ok (some (left ∪ right).intervals) := by
  rw [run_eq_swept]
  · rfl
  · exact enough

end Cursors

section Sweep

variable {lefts rights : List Interval}

theorem length_sweep_le :
    (sweep lefts rights).length ≤ lefts.length + rights.length := by
  fun_induction sweep lefts rights with
  | case1 rights => simp
  | case2 left leftRest => simp
  | _ =>
      simp only [List.length_cons] at *
      omega

/-- A merged interval stays in one of the operands, so something is left. -/
theorem sweep_eq_nil_iff :
    sweep lefts rights = [] ↔ lefts = [] ∧ rights = [] := by
  fun_induction sweep lefts rights with
  | case1 rights => simp
  | case2 left leftRest => simp
  | case3 left leftRest right rightRest before => simp
  | case4 left leftRest right rightRest notBefore after => simp
  | case5 left leftRest right rightRest notBefore notAfter shorter
      inductionHypothesis =>
      simp [inductionHypothesis]
  | case6 left leftRest right rightRest notBefore notAfter notShorter
      inductionHypothesis =>
      simp [inductionHypothesis]

/-- Ends are taken from the operands as they are, in any order. -/
theorem endsIn_ends_of_mem_sweep :
    ∀ interval ∈ sweep lefts rights,
      interval.EndsIn (· ∈ ends (lefts ++ rights)) := by
  have inEnds := List.forall_mem_append.mp (endsIn_ends (lefts ++ rights))
  exact forall_sweep
    (fun leftEnds rightEnds _ =>
      Interval.endsIn_hull_of_endsIn leftEnds rightEnds)
    inEnds.1 inEnds.2

/-- For intervals in order, starts are taken from starts and stops from
stops. -/
theorem exists_ends_of_mem_sweep
    {sources : List Interval}
    (leftsOrdered : ∀ interval ∈ lefts, interval.Ordered)
    (rightsOrdered : ∀ interval ∈ rights, interval.Ordered)
    (leftsAmong : ∀ interval ∈ lefts, interval ∈ sources)
    (rightsAmong : ∀ interval ∈ rights, interval ∈ sources) :
    ∀ interval ∈ sweep lefts rights, interval.Ordered ∧
      interval.start ∈ sources.map Interval.start ∧
        interval.stop ∈ sources.map Interval.stop := by
  apply forall_sweep
  · rintro left right ⟨leftOrdered, leftStart, leftStop⟩
      ⟨rightOrdered, rightStart, rightStop⟩ -
    refine ⟨Interval.ordered_hull left right, ?_, ?_⟩
    · rcases Interval.start_hull_eq_or leftOrdered rightOrdered with
        equal | equal
      · rw [equal]
        exact leftStart
      · rw [equal]
        exact rightStart
    · rcases Interval.stop_hull_eq_or leftOrdered rightOrdered with
        equal | equal
      · rw [equal]
        exact leftStop
      · rw [equal]
        exact rightStop
  · intro left member
    exact ⟨leftsOrdered left member,
      List.mem_map_of_mem (leftsAmong left member),
      List.mem_map_of_mem (leftsAmong left member)⟩
  · intro right member
    exact ⟨rightsOrdered right member,
      List.mem_map_of_mem (rightsAmong right member),
      List.mem_map_of_mem (rightsAmong right member)⟩

end Sweep

/-- The sweep is safe on any operands. With two cursors it takes at most one
turn less than there are intervals, asks for no place that is not there, and
gives the union. The union has no more intervals than its operands together, and
none only if they have none. All its ends are ends of theirs in all fields. When
their intervals are in order, so are those of the union, and its starts are
starts of theirs and its stops stops of theirs. -/
theorem sweep_is_safe (left right : Range) :
    (∀ turns, left.size + right.size ≤ turns + 1 →
      (Cursors.start left right).run turns =
        .ok (some (left ∪ right).intervals)) ∧
    (left ∪ right).size ≤ left.size + right.size ∧
    ((left ∪ right).size = 0 ↔ left.size = 0 ∧ right.size = 0) ∧
    (∀ interval ∈ (left ∪ right).intervals,
      interval.EndsIn (· ∈ ends (left.intervals ++ right.intervals))) ∧
    ((∀ interval ∈ left.intervals ++ right.intervals, interval.Ordered) →
      ∀ interval ∈ (left ∪ right).intervals, interval.Ordered ∧
        interval.start ∈
          (left.intervals ++ right.intervals).map Interval.start ∧
        interval.stop ∈
          (left.intervals ++ right.intervals).map Interval.stop) := by
  refine ⟨fun turns => Cursors.run_start, length_sweep_le, ?_,
    endsIn_ends_of_mem_sweep, ?_⟩
  · simp only [size, List.length_eq_zero_iff]
    exact sweep_eq_nil_iff
  · intro ordered
    rw [List.forall_mem_append] at ordered
    exact exists_ends_of_mem_sweep ordered.1 ordered.2
      (fun _ => List.mem_append_left _) (fun _ => List.mem_append_right _)

/-- Two overlapping intervals in falling order. -/
def fallingOperand : Range :=
  ⟨[⟨positionAt 12, positionAt 15⟩, ⟨positionAt 2, positionAt 13⟩]⟩

/-- An interval that starts after its stop, and one of another file. -/
def reversedOperand : Range :=
  ⟨[⟨positionAt 14, positionAt 11⟩, ⟨.origin "g", .origin "g"⟩]⟩

/-- Unsorted operands, one of them with a reversed interval: the sweep ends after
three turns for four intervals, and not before. Without the reversed interval
all intervals of the union are in order. -/
theorem sweep_is_safe_of_reversed :
    fallingOperand.size + reversedOperand.size ≤ 3 + 1 ∧
    (Cursors.start fallingOperand reversedOperand).run 3 =
      .ok (some (fallingOperand ∪ reversedOperand).intervals) ∧
    (Cursors.start fallingOperand reversedOperand).run 2 = .ok none ∧
    (∀ interval ∈ fallingOperand.intervals ++ touchingBack.intervals,
      interval.Ordered) ∧
    ∀ interval ∈ (fallingOperand ∪ touchingBack).intervals,
      interval.Ordered := by
  obtain ⟨run, -⟩ := sweep_is_safe fallingOperand reversedOperand
  obtain ⟨-, -, -, -, ordered⟩ := sweep_is_safe fallingOperand touchingBack
  have inOrder : ∀ interval ∈
      fallingOperand.intervals ++ touchingBack.intervals,
        interval.Ordered := by
    decide
  refine ⟨by decide, run 3 (by decide), by decide, inOrder, ?_⟩
  intro interval member
  exact (ordered inOrder interval member).1

end Range

end Locus
