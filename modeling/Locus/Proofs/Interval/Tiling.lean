import Locus.Interval.Reading
import Locus.Proofs.Position.OnText
import Locus.Proofs.Range.Normal
import Mathlib.Data.List.Chain

/-!
# Pieces tile an interval

Intervals that lie end to end tile the stretch from the first start to the last
stop, and the normal form puts them together again. The pieces read from an
interval in turn lie end to end, so where the text is cut does not matter: what
the pieces cover together, and what is left behind them, is what one piece with
the whole text would cover and leave, in lines and columns too.
-/

namespace Locus

/-- The intervals lie end to end from one position to another. -/
inductive Tiles : Position → List Interval → Position → Prop
  /-- No interval is needed to stay at a position. -/
  | nil (position : Position) : Tiles position [] position
  /-- The first interval stops where the others start. -/
  | cons
      {first middle last : Position}
      {rest : List Interval}
      (ordered : first ≤ middle)
      (tiles : Tiles middle rest last) :
      Tiles first (⟨first, middle⟩ :: rest) last

namespace Tiles

variable {first middle last : Position} {intervals rest : List Interval}

/-- Nothing starts or stops before the first position. -/
theorem le_ends
    (tiles : Tiles first intervals last) :
    ∀ interval ∈ intervals, first ≤ interval.start ∧ first ≤ interval.stop := by
  induction tiles with
  | nil position => simp
  | cons ordered _ inductionHypothesis =>
      refine List.forall_mem_cons.mpr ⟨⟨le_refl _, ordered⟩, ?_⟩
      intro interval member
      obtain ⟨start, stop⟩ := inductionHypothesis interval member
      exact ⟨le_trans ordered start, le_trans ordered stop⟩

theorem ascending_eq (tiles : Tiles first intervals last) :
    ascending intervals = intervals := by
  apply ascending_of_pairwise
  induction tiles with
  | nil position => exact .nil
  | cons ordered tiles inductionHypothesis =>
      refine List.pairwise_cons.mpr ⟨?_, inductionHypothesis⟩
      intro interval member
      obtain ⟨start, stop⟩ := tiles.le_ends interval member
      exact Interval.le_of_ends_le (le_trans ordered start) stop

/-- A pending interval absorbs everything that lies end to end behind it. It
keeps its own start and takes each stop in turn. -/
theorem coalesce_eq
    (tiles : Tiles middle rest last)
    (ordered : first ≤ middle) :
    Range.coalesce ⟨first, middle⟩ rest = [⟨first, last⟩] := by
  induction tiles generalizing first with
  | nil position => rfl
  | @cons middle _ _ _ nextOrdered _ inductionHypothesis =>
      have noGap : ¬middle < middle := lt_irrefl middle
      rw [Range.coalesce, if_neg noGap,
        Interval.hull_of_end_to_end ordered nextOrdered]
      exact inductionHypothesis (le_trans ordered nextOrdered)

/-- The normal form of intervals that lie end to end is the whole stretch. -/
theorem ofIntervals_eq
    (tiles : Tiles first intervals last)
    (nonempty : intervals ≠ []) :
    Range.ofIntervals intervals = Interval.toRange ⟨first, last⟩ := by
  rw [Range.ofIntervals, tiles.ascending_eq]
  cases tiles with
  | nil position => exact absurd rfl nonempty
  | cons ordered tiles =>
      rw [Range.joinNeighbours, tiles.coalesce_eq ordered]
      rfl

theorem isChain (tiles : Tiles first intervals last) :
    intervals.IsChain fun interval next => interval.stop = next.start := by
  induction tiles with
  | nil position => exact .nil
  | cons _ tiles inductionHypothesis =>
      cases tiles with
      | nil position => exact .singleton _
      | cons _ _ => exact .cons_cons rfl inductionHypothesis

theorem getLast?_stop
    (tiles : Tiles first intervals last)
    (nonempty : intervals ≠ []) :
    intervals.getLast?.map Interval.stop = some last := by
  induction tiles with
  | nil position => exact absurd rfl nonempty
  | cons _ tiles inductionHypothesis =>
      cases tiles with
      | nil position => rfl
      | cons ordered tiles =>
          rw [List.getLast?_cons_cons]
          exact inductionHypothesis (by simp)

end Tiles

namespace Position

variable {position : Position} {texts : List String}

/-- The stretches that texts cover when they are read one after the other. -/
def stretches (position : Position) : List String → List Interval
  | [] => []
  | text :: rest =>
      ⟨position, position.advanceBy text⟩ ::
        (position.advanceBy text).stretches rest

@[simp] theorem length_stretches :
    (position.stretches texts).length = texts.length := by
  induction texts generalizing position with
  | nil => rfl
  | cons text rest inductionHypothesis =>
      rw [stretches, List.length_cons, inductionHypothesis, List.length_cons]

/-- The stretches tile what the texts cover together. -/
theorem tiles_stretches (position : Position) (texts : List String) :
    Tiles position (position.stretches texts)
      (position.advanceBy (String.join texts)) := by
  induction texts generalizing position with
  | nil => exact .nil position
  | cons text rest inductionHypothesis =>
      rw [String.join_cons, advanceBy_append]
      exact .cons (le_advanceBy position text) (inductionHypothesis _)

/-- Each stretch lies between what was read before it and what was read with
it. -/
theorem eq_of_getElem?_stretches
    {index : Nat}
    {stretch : Interval}
    (found : (position.stretches texts)[index]? = some stretch) :
    stretch =
      ⟨position.advanceBy (String.join (texts.take index)),
        position.advanceBy (String.join (texts.take (index + 1)))⟩ := by
  induction texts generalizing position index with
  | nil => simp [stretches] at found
  | cons text rest inductionHypothesis =>
      rw [List.take_succ_cons, String.join_cons, advanceBy_append]
      cases index with
      | zero =>
          cases found
          simp
      | succ index =>
          rw [List.take_succ_cons, String.join_cons, advanceBy_append]
          exact inductionHypothesis found

end Position

namespace Reading

/-- What follows a computation that succeeds and reports nothing goes on with
its result. -/
theorem run_bind_of_run
    {α β : Type}
    {reading : Reading α}
    {next : α → Reading β}
    {result : α}
    (success : reading.run = (.ok result, [])) :
    (reading >>= next).run = (next result).run := by
  unfold run at *
  rw [ExceptT.run_bind, StateT.run_bind, success]
  rfl

end Reading

namespace Interval

open Sample (positionAt)

variable {interval : Interval}

theorem run_take_of_fits
    {text : String}
    (fits : (text.length : Int) ≤ interval.length) :
    (interval.take text).run =
      (.ok ⟨interval.start, interval.start.advanceBy text⟩, []) := by
  rw [run_take, if_neg (Int.not_lt.mpr fits)]

theorem run_drop_of_fits
    {text : String}
    (fits : (text.length : Int) ≤ interval.length) :
    (interval.drop text).run =
      (.ok ⟨interval.start.advanceBy text, interval.stop⟩, []) := by
  rw [run_drop, if_neg (Int.not_lt.mpr fits)]

/-- Pieces that fit together are all read. Each covers its stretch and leaves
what lies behind it: reading a piece shortens the rest by no more than the
piece. -/
theorem run_pieces
    {texts : List String}
    (fits : ((String.join texts).length : Int) ≤ interval.length) :
    (interval.pieces texts).run =
      (.ok ((interval.start.stretches texts).map fun stretch =>
        (stretch, ⟨stretch.stop, interval.stop⟩)), []) := by
  induction texts generalizing interval with
  | nil => rfl
  | cons text rest inductionHypothesis =>
      rw [String.join_cons, String.length_append] at fits
      have textFits : (text.length : Int) ≤ interval.length := by
        omega
      have restFits : ((String.join rest).length : Int) ≤
          Interval.length ⟨interval.start.advanceBy text, interval.stop⟩ := by
        unfold length at *
        rw [Position.offset_advanceBy]
        change _ ≤ interval.stop.offset - _
        omega
      rw [pieces, Reading.run_bind_of_run (run_take_of_fits textFits),
        Reading.run_bind_of_run (run_drop_of_fits textFits),
        Reading.run_bind_of_run (inductionHypothesis restFits)]
      rfl

/-- Pieces that together are no longer than the interval are all read, and they
tile it. Each piece covers the text from the pieces before it up to its
own end and leaves the rest, and the next one starts where it stops. Together
they cover, and the last one leaves, what a single piece with the whole text
would: it does not matter where the text is cut. -/
theorem pieces_tile
    {texts : List String}
    (nonempty : texts ≠ [])
    (fits : ((String.join texts).length : Int) ≤ interval.length) :
    ∃ (parts : List (Interval × Interval)) (whole left : Interval),
      (interval.pieces texts).run = (.ok parts, []) ∧
      (interval.take (String.join texts)).run = (.ok whole, []) ∧
      (interval.drop (String.join texts)).run = (.ok left, []) ∧
      parts.length = texts.length ∧
      (∀ (index : Nat) (part : Interval × Interval), parts[index]? = some part →
        part.1 =
          ⟨interval.start.advanceBy (String.join (texts.take index)),
            interval.start.advanceBy (String.join (texts.take (index + 1)))⟩ ∧
        part.2 =
          ⟨interval.start.advanceBy (String.join (texts.take (index + 1))),
            interval.stop⟩) ∧
      parts.IsChain (fun part next => part.1.stop = next.1.start) ∧
      parts.getLast?.map Prod.snd = some left ∧
      Range.ofIntervals (parts.map Prod.fst) = whole.toRange := by
  have tiles := Position.tiles_stretches interval.start texts
  have stretchesNonempty : interval.start.stretches texts ≠ [] := by
    rw [← List.length_pos_iff, Position.length_stretches]
    exact List.length_pos_iff.mpr nonempty
  refine ⟨_, _, _, run_pieces fits, run_take_of_fits fits,
    run_drop_of_fits fits, ?_, ?_, ?_, ?_, ?_⟩
  · rw [List.length_map, Position.length_stretches]
  · intro index part found
    rw [List.getElem?_map, Option.map_eq_some_iff] at found
    obtain ⟨stretch, found, rfl⟩ := found
    have bounds := Position.eq_of_getElem?_stretches found
    subst bounds
    exact ⟨rfl, rfl⟩
  · rw [List.isChain_map]
    exact tiles.isChain
  · have lastStop := tiles.getLast?_stop stretchesNonempty
    rw [Option.map_eq_some_iff] at lastStop
    obtain ⟨stretch, found, stop⟩ := lastStop
    rw [List.getLast?_map, found, ← stop]
    rfl
  · have covered : (((interval.start.stretches texts).map fun stretch =>
          (stretch, Interval.mk stretch.stop interval.stop)).map Prod.fst) =
        interval.start.stretches texts := by
      rw [List.map_map]
      exact List.map_id _
    rw [covered]
    exact tiles.ofIntervals_eq stretchesNonempty

/-- Eight characters, up to a position that is in another file. -/
def unread : Interval :=
  ⟨⟨⟨"f", 1⟩, 1, 1⟩, ⟨⟨"g", 9⟩, 1, 9⟩⟩

/-- A tab at the end of a piece, nothing, and a line break in the middle. -/
def cuts : List String :=
  ["a\t", "", "b\nc"]

/-- Pieces cut behind a tab and around a line break. -/
theorem pieces_tile_of_cuts :
    cuts ≠ [] ∧
    ((String.join cuts).length : Int) ≤ unread.length ∧
    ∃ parts,
      (unread.pieces cuts).run = (.ok parts, []) ∧
      parts.length = 3 ∧
      parts.getLast?.map Prod.snd = some ⟨⟨⟨"f", 6⟩, 2, 2⟩, unread.stop⟩ ∧
      Range.ofIntervals (parts.map Prod.fst) =
        Interval.toRange ⟨unread.start, ⟨⟨"f", 6⟩, 2, 2⟩⟩ := by
  have fits : ((String.join cuts).length : Int) ≤ unread.length := by
    decide
  obtain ⟨parts, whole, left, read, taken, dropped, count, -, -, last,
    normal⟩ := pieces_tile (by decide) fits
  have takenWhole : (unread.take (String.join cuts)).run =
      (.ok ⟨unread.start, ⟨⟨"f", 6⟩, 2, 2⟩⟩, []) := by decide
  have droppedWhole : (unread.drop (String.join cuts)).run =
      (.ok ⟨⟨⟨"f", 6⟩, 2, 2⟩, unread.stop⟩, []) := by decide
  rw [takenWhole] at taken
  rw [droppedWhole] at dropped
  cases taken
  cases dropped
  exact ⟨by decide, fits, parts, read, count, last, normal⟩

end Interval

end Locus
