import Locus.Proofs.Range.OnText
import Locus.Proofs.Value.Leaves
import Locus.Proofs.Value.Relocation

/-!
# Runs that stay on a text

Locations are obtained from the origin of a text by reading the text, by
joining what was obtained before, and by locating and moving nested values.
Whatever the run, all positions that are obtained are positions of the text,
and all intervals and ranges are bounded by them. What a step keeps is said of
the leaves of a value, since locating gathers nothing else.
-/

namespace Locus
namespace Value

/-- All that a run of operations on the locations of one text can give. -/
inductive Obtained (file text : String) : Value → Prop
  /-- Begin at the first position of the text. -/
  | origin : Obtained file text (.position (.origin file))
  /-- Read the character at a position. -/
  | past
      {position : Position}
      {character : Char}
      (obtained : Obtained file text (.position position))
      (next : text.toList[position.index]? = some character) :
      Obtained file text (.position (position.past character))
  /-- Go back over a character that is neither a tab nor a newline. -/
  | retreat
      {position : Position}
      {count : Nat}
      {character : Char}
      (obtained : Obtained file text (.position position))
      (behind : position.index = count + 1)
      (last : text.toList[count]? = some character)
      (noTab : character ≠ '\t')
      (noNewline : character ≠ '\n') :
      Obtained file text (.position position.retreat)
  /-- Form an interval of two positions in order. -/
  | interval
      {first last : Position}
      (obtainedFirst : Obtained file text (.position first))
      (obtainedLast : Obtained file text (.position last))
      (ordered : first ≤ last) :
      Obtained file text (.interval ⟨first, last⟩)
  /-- Look where an interval starts. -/
  | start
      {interval : Interval}
      (obtained : Obtained file text (.interval interval)) :
      Obtained file text (.position interval.start)
  /-- Look where an interval stops. -/
  | stop
      {interval : Interval}
      (obtained : Obtained file text (.interval interval)) :
      Obtained file text (.position interval.stop)
  /-- Read a piece that comes next in the text and fits into an interval. -/
  | take
      {interval part : Interval}
      {piece : String}
      (obtained : Obtained file text (.interval interval))
      (next : piece.toList <+: text.toList.drop interval.start.index)
      (taken : (interval.take piece).run.1 = .ok part) :
      Obtained file text (.interval part)
  /-- Keep what is left of an interval behind such a piece. -/
  | drop
      {interval part : Interval}
      {piece : String}
      (obtained : Obtained file text (.interval interval))
      (next : piece.toList <+: text.toList.drop interval.start.index)
      (dropped : (interval.drop piece).run.1 = .ok part) :
      Obtained file text (.interval part)
  /-- Take the hull of two intervals. -/
  | hull
      {left right : Interval}
      (obtainedLeft : Obtained file text (.interval left))
      (obtainedRight : Obtained file text (.interval right)) :
      Obtained file text (.interval (left.hull right))
  /-- Turn an interval into a range. -/
  | toRange
      {interval : Interval}
      (obtained : Obtained file text (.interval interval)) :
      Obtained file text (.range interval.toRange)
  /-- Take the range between two positions in either order. -/
  | between
      {first second : Position}
      (obtainedFirst : Obtained file text (.position first))
      (obtainedSecond : Obtained file text (.position second)) :
      Obtained file text (.range (.between first second))
  /-- Take the normal form of any intervals. -/
  | ofIntervals
      {intervals : List Interval}
      (obtained : ∀ interval ∈ intervals,
        Obtained file text (.interval interval)) :
      Obtained file text (.range (.ofIntervals intervals))
  /-- Unite two ranges. -/
  | union
      {left right : Range}
      (obtainedLeft : Obtained file text (.range left))
      (obtainedRight : Obtained file text (.range right)) :
      Obtained file text (.range (left ∪ right))
  /-- Take the outer bound of a range. -/
  | outer
      {range : Range}
      {outer : Interval}
      (obtained : Obtained file text (.range range))
      (bounded : range.outer? = some outer) :
      Obtained file text (.interval outer)
  /-- Pick an interval of a range. -/
  | member
      {range : Range}
      {interval : Interval}
      (obtained : Obtained file text (.range range))
      (member : interval ∈ range.intervals) :
      Obtained file text (.interval interval)
  /-- Begin without a value. -/
  | absent : Obtained file text .absent
  /-- Put any values into a sequence without a location of its own. -/
  | sequence
      {value : Value}
      {shape : Shape}
      {items : List Value}
      (opened : value.opened? = some (shape, items))
      (obtained : ∀ item ∈ items, Obtained file text item) :
      Obtained file text value
  /-- Make a node that holds a range. -/
  | node
      {value : Value}
      {handle : Handle}
      {range : Range}
      (exposed : value.handle? = some handle)
      (placed : handle.range? = some range)
      (obtained : Obtained file text (.range range)) :
      Obtained file text value
  /-- Locate a value. -/
  | locate
      {value : Value}
      {range : Range}
      (obtained : Obtained file text value)
      (located : value.locate = .ok range) :
      Obtained file text (.range range)
  /-- Replace the location of any value by a range. -/
  | relocate
      {value moved : Value}
      {range : Range}
      (obtained : Obtained file text (.range range))
      (relocated : value.relocate range = .ok moved) :
      Obtained file text moved
  /-- Replace the location of any value by that of another. -/
  | relocateTo
      {value target moved : Value}
      (obtained : Obtained file text target)
      (relocated : value.relocateTo target = .ok moved) :
      Obtained file text moved

/-- The leaves of the value that are positions, and the locations of the
others, lie on the text. -/
def OnText (file text : String) (value : Value) : Prop :=
  ∀ leaf ∈ value.leaves,
    (∀ position, leaf = .position position → position.OnText file text) ∧
      ∀ location, leaf.ownRange? = some location →
        location.OnText file text

variable {file text : String} {value : Value}

theorem onText_iff_of_leaf (leaf : value.opened? = none) :
    value.OnText file text ↔
      (∀ position, value = .position position →
        position.OnText file text) ∧
      ∀ location, value.ownRange? = some location →
        location.OnText file text := by
  rw [OnText, leaves_of_leaf leaf, List.forall_mem_singleton]

@[simp] theorem onText_position_iff {position : Position} :
    (Value.position position).OnText file text ↔
      position.OnText file text := by
  rw [onText_iff_of_leaf rfl]
  simp [ownRange?, handle?]

theorem onText_iff_of_ownRange
    {location : Range}
    (leaf : value.opened? = none)
    (own : value.ownRange? = some location) :
    value.OnText file text ↔ location.OnText file text := by
  rw [onText_iff_of_leaf leaf, own]
  constructor
  · rintro ⟨-, ownOnText⟩
    exact ownOnText location rfl
  · intro onText
    constructor
    · rintro position rfl
      cases own
    · rintro other same
      cases same
      exact onText

@[simp] theorem onText_range_iff {range : Range} :
    (Value.range range).OnText file text ↔ range.OnText file text :=
  onText_iff_of_ownRange rfl rfl

@[simp] theorem onText_interval_iff {interval : Interval} :
    (Value.interval interval).OnText file text ↔
      interval.OnText file text :=
  (onText_iff_of_ownRange rfl rfl).trans Range.onText_toRange_iff

theorem onText_absent : Value.absent.OnText file text :=
  (onText_iff_of_ownRange rfl rfl).mpr Range.onText_empty

theorem onText_of_opened
    {shape : Shape}
    {items : List Value}
    (opened : value.opened? = some (shape, items))
    (onText : ∀ item ∈ items, item.OnText file text) :
    value.OnText file text := by
  unfold OnText
  rw [leaves_of_opened opened, List.forall_mem_flatMap]
  exact onText

theorem OnText.locate
    (onText : value.OnText file text)
    {location : Range}
    (located : value.locate = .ok location) :
    location.OnText file text := by
  apply (gathered_of_locate located).onText
  intro part member
  obtain ⟨leaf, leafMember, own⟩ := List.mem_filterMap.mp member
  exact (onText leaf leafMember).2 part own

/-- A moved value lies where it was moved to. -/
theorem onText_of_relocate
    {moved : Value}
    {range : Range}
    (onText : range.OnText file text)
    (relocated : value.relocate range = .ok moved) :
    moved.OnText file text := by
  have located := locate_of_relocate relocated
  have leaf : moved.opened? = none := by
    unfold relocate at relocated
    split at relocated <;> cases relocated <;> rfl
  exact (onText_iff_of_ownRange leaf
    (ownRange_of_locate leaf located)).mpr onText

/-- Every step of a run stays on the text. -/
theorem Obtained.onText (obtained : Obtained file text value) :
    value.OnText file text := by
  induction obtained with
  | origin => exact onText_position_iff.mpr Position.onText_origin
  | past _ next inductionHypothesis =>
      rw [onText_position_iff] at *
      exact inductionHypothesis.past next
  | retreat _ behind last noTab noNewline inductionHypothesis =>
      rw [onText_position_iff] at *
      exact inductionHypothesis.retreat behind last noTab noNewline
  | interval _ _ ordered firstHypothesis lastHypothesis =>
      rw [onText_position_iff] at firstHypothesis lastHypothesis
      rw [onText_interval_iff]
      exact ⟨ordered, firstHypothesis, lastHypothesis⟩
  | start _ inductionHypothesis =>
      rw [onText_interval_iff] at inductionHypothesis
      exact onText_position_iff.mpr inductionHypothesis.ends.1
  | stop _ inductionHypothesis =>
      rw [onText_interval_iff] at inductionHypothesis
      exact onText_position_iff.mpr inductionHypothesis.ends.2
  | take _ next taken inductionHypothesis =>
      rw [onText_interval_iff] at *
      exact inductionHypothesis.take next taken
  | drop _ next dropped inductionHypothesis =>
      rw [onText_interval_iff] at *
      exact inductionHypothesis.drop next dropped
  | hull _ _ leftHypothesis rightHypothesis =>
      rw [onText_interval_iff] at *
      exact leftHypothesis.hull rightHypothesis
  | toRange _ inductionHypothesis =>
      rw [onText_interval_iff] at inductionHypothesis
      rw [onText_range_iff, Range.onText_toRange_iff]
      exact inductionHypothesis
  | between _ _ firstHypothesis secondHypothesis =>
      rw [onText_position_iff] at firstHypothesis secondHypothesis
      rw [onText_range_iff]
      exact Range.onText_between firstHypothesis secondHypothesis
  | ofIntervals _ inductionHypothesis =>
      rw [onText_range_iff]
      apply Range.onText_ofIntervals
      intro interval member
      exact onText_interval_iff.mp (inductionHypothesis interval member)
  | union _ _ leftHypothesis rightHypothesis =>
      rw [onText_range_iff] at *
      exact leftHypothesis.union rightHypothesis
  | outer _ bounded inductionHypothesis =>
      rw [onText_range_iff] at inductionHypothesis
      rw [onText_interval_iff]
      exact inductionHypothesis.outer bounded
  | member _ member inductionHypothesis =>
      rw [onText_range_iff] at inductionHypothesis
      rw [onText_interval_iff]
      exact inductionHypothesis.mem member
  | absent => exact onText_absent
  | sequence opened _ inductionHypothesis =>
      exact onText_of_opened opened inductionHypothesis
  | node exposed placed _ inductionHypothesis =>
      rw [onText_range_iff] at inductionHypothesis
      rw [onText_iff_of_ownRange (opened_of_handle exposed placed)
        (ownRange_of_handle exposed placed)]
      exact inductionHypothesis
  | locate _ located inductionHypothesis =>
      rw [onText_range_iff]
      exact inductionHypothesis.locate located
  | relocate _ relocated inductionHypothesis =>
      rw [onText_range_iff] at inductionHypothesis
      exact onText_of_relocate inductionHypothesis relocated
  | relocateTo _ relocated inductionHypothesis =>
      obtain ⟨range, located, moved⟩ := relocateTo_eq_ok_iff.mp relocated
      exact onText_of_relocate (inductionHypothesis.locate located) moved

/-- All positions of the text can be obtained, by reading alone. -/
theorem obtained_after {count : Nat} (fits : count ≤ text.length) :
    Obtained file text (.position (.after file text count)) := by
  induction count with
  | zero =>
      rw [Position.after_zero]
      exact .origin
  | succ count inductionHypothesis =>
      have shorter : count ≤ text.length := Nat.le_of_succ_le fits
      have inside : count < text.toList.length := by
        rw [String.length_toList]
        exact fits
      have next := List.getElem?_eq_getElem inside
      rw [Position.after_succ next]
      apply Obtained.past (inductionHypothesis shorter)
      rw [Position.index_after shorter]
      exact next

/-- Locations stay on their text over whole runs. The positions that are
obtained are those after the prefixes of the text, in line and column too. The
intervals that are obtained are valid and run from one of these positions to
another, and the ranges are canonical and consist of such intervals. -/
theorem locations_stay_on_text (file text : String) :
    (∀ position, Obtained file text (.position position) ↔
      ∃ count ≤ text.length, position = .after file text count) ∧
    (∀ interval, Obtained file text (.interval interval) →
      interval.Valid ∧
        ∃ first last, first ≤ last ∧ last ≤ text.length ∧
          interval = ⟨.after file text first, .after file text last⟩) ∧
    (∀ range, Obtained file text (.range range) →
      range.Canonical ∧
        ∀ interval ∈ range.intervals,
          ∃ first last, first ≤ last ∧ last ≤ text.length ∧
            interval = ⟨.after file text first, .after file text last⟩) := by
  refine ⟨?_, ?_, ?_⟩
  · intro position
    constructor
    · intro obtained
      exact onText_position_iff.mp obtained.onText
    · rintro ⟨count, fits, rfl⟩
      exact obtained_after fits
  · intro interval obtained
    have onText := onText_interval_iff.mp obtained.onText
    exact ⟨onText.valid, onText.exists_after⟩
  · intro range obtained
    have onText := onText_range_iff.mp obtained.onText
    refine ⟨onText.canonical, ?_⟩
    intro interval member
    exact (onText.mem member).exists_after

/-- The last two characters of a text whose second one is a tab. -/
def remainder : Interval :=
  ⟨⟨⟨"f", 3⟩, 1, 9⟩, ⟨⟨"f", 5⟩, 2, 1⟩⟩

/-- The remainder in a list, and a node that holds the first character. -/
def remainderAndNode : Value :=
  .tuple
    [.list [.interval remainder, .absent],
      .ranged (.between ⟨⟨"f", 2⟩, 1, 2⟩ (.origin "f"))]

theorem obtained_remainder :
    Obtained "f" "a\tb\n" (.interval remainder) := by
  have fits : 4 ≤ "a\tb\n".length := by decide
  have finish : Obtained "f" "a\tb\n" (.position ⟨⟨"f", 5⟩, 2, 1⟩) :=
    obtained_after fits
  have whole := Obtained.interval .origin finish (by decide)
  have next : "a\t".toList <+:
      "a\tb\n".toList.drop (Position.origin "f").index := by decide
  exact whole.drop next (by decide)

theorem obtained_remainderAndNode :
    Obtained "f" "a\tb\n" remainderAndNode := by
  have first : "a\tb\n".toList[(Position.origin "f").index]? = some 'a' := by
    decide
  have second := Obtained.past .origin first
  refine .sequence rfl ?_
  simp only [List.forall_mem_cons]
  refine ⟨.sequence rfl ?_, .node rfl rfl (.between second .origin), by simp⟩
  simp only [List.forall_mem_cons]
  exact ⟨obtained_remainder, .absent, by simp⟩

/-- Where the remainder starts, the remainder, and where both parts are. -/
theorem locations_stay_on_text_past_tab :
    (∃ count ≤ "a\tb\n".length,
        remainder.start = .after "f" "a\tb\n" count) ∧
      remainder.Valid ∧
      ∃ location, remainderAndNode.locate = .ok location ∧
        Obtained "f" "a\tb\n" (.range location) ∧ location.Canonical := by
  obtain ⟨ofPositions, ofIntervals, ofRanges⟩ :=
    locations_stay_on_text "f" "a\tb\n"
  have start := (ofPositions remainder.start).mp (.start obtained_remainder)
  have valid := (ofIntervals remainder obtained_remainder).1
  obtain ⟨location, located⟩ : ∃ location,
      remainderAndNode.locate = .ok location := exists_locate (by decide)
  have obtained := obtained_remainderAndNode.locate located
  exact ⟨start, valid, location, located, obtained,
    (ofRanges location obtained).1⟩

end Value
end Locus
