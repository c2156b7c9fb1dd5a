import Locus.Proofs.Position.Places
import Mathlib.Data.Int.ModEq
import Mathlib.Data.List.DropRight
import Mathlib.Order.Bounds.Basic

/-!
# Reading in closed form

Where a text leads can be said without reading it step by step. The offset
grows by the characters and the line by the newlines of the text. The column is
a matter of the last line alone, along which it goes from the first column, or
from where the reading started if there is no newline: a tab leads to the next
column that lies whole tab widths behind the first one.
-/

namespace Locus
namespace Position

/-- The column that the characters of one line lead to from another column. -/
inductive ColumnAfter : Int → List Char → Int → Prop
  /-- Without characters the column stays. -/
  | nil (column : Int) : ColumnAfter column [] column
  /-- A tab leads to the next column that is a multiple of the tab width behind
  the first. -/
  | tab
      {column stop last : Int}
      {rest : List Char}
      (next : IsLeast {stop | column < stop ∧ stop ≡ 1 [ZMOD 8]} stop)
      (onward : ColumnAfter stop rest last) :
      ColumnAfter column ('\t' :: rest) last
  /-- Any other character takes one column. -/
  | other
      {column last : Int}
      {character : Char}
      {rest : List Char}
      (noTab : character ≠ '\t')
      (onward : ColumnAfter (column + 1) rest last) :
      ColumnAfter column (character :: rest) last

namespace ColumnAfter

variable {start first second last : Int} {characters front back : List Char}

/-- The characters lead to one column only. -/
theorem unique
    (one : ColumnAfter start characters first)
    (other : ColumnAfter start characters second) :
    first = second := by
  induction one with
  | nil column =>
      cases other
      rfl
  | tab next _ inductionHypothesis =>
      cases other with
      | tab otherNext onward =>
          rw [← next.unique otherNext] at onward
          exact inductionHypothesis onward
      | other noTab _ => exact absurd rfl noTab
  | other noTab _ inductionHypothesis =>
      cases other with
      | tab _ _ => exact absurd rfl noTab
      | other _ onward => exact inductionHypothesis onward

/-- What the back leads to, it leads to from some column behind the front. -/
theorem exists_of_append
    (whole : ColumnAfter start (front ++ back) last) :
    ∃ middle, ColumnAfter start front middle ∧
      ColumnAfter middle back last := by
  induction front generalizing start with
  | nil => exact ⟨start, .nil start, whole⟩
  | cons character front inductionHypothesis =>
      cases whole with
      | tab next onward =>
          obtain ⟨middle, first, second⟩ := inductionHypothesis onward
          exact ⟨middle, .tab next first, second⟩
      | other noTab onward =>
          obtain ⟨middle, first, second⟩ := inductionHypothesis onward
          exact ⟨middle, .other noTab first, second⟩

theorem eq_add_length
    (along : ColumnAfter start characters last)
    (noTab : '\t' ∉ characters) :
    last = start + characters.length := by
  induction along with
  | nil column => simp
  | tab _ _ _ => exact absurd List.mem_cons_self noTab
  | other _ _ inductionHypothesis =>
      rw [inductionHypothesis (List.not_mem_of_not_mem_cons noTab),
        List.length_cons]
      omega

/-- The last tab alone decides the column, up to whole tab widths. -/
theorem modEq_add_length
    (along : ColumnAfter start (front ++ '\t' :: back) last)
    (noTab : '\t' ∉ back) :
    last ≡ 1 + back.length [ZMOD 8] := by
  obtain ⟨middle, -, behind⟩ := along.exists_of_append
  cases behind with
  | tab next onward =>
      rw [onward.eq_add_length noTab]
      exact next.1.2.add_right _
  | other notTab _ => exact absurd rfl notTab

end ColumnAfter

/-- The division of the tab rule rounds to the next stop, also at a stop, right
before one and at columns before the first. -/
theorem isLeast_nextTabStop (column : Int) :
    IsLeast {stop | column < stop ∧ stop ≡ 1 [ZMOD 8]}
      (nextTabStop column) := by
  constructor
  · refine ⟨lt_nextTabStop column, ?_⟩
    unfold nextTabStop tabWidth Int.ModEq
    omega
  · rintro stop ⟨beyond, atStop⟩
    unfold Int.ModEq at atStop
    unfold nextTabStop tabWidth
    omega

section Steps

variable {position : Position} {character : Char} {characters : List Char}

@[simp] theorem column_past_tab :
    (position.past '\t').column = nextTabStop position.column := rfl

@[simp] theorem column_past_newline :
    (position.past '\n').column = 1 := rfl

theorem column_past_of_ne
    (noTab : character ≠ '\t')
    (noNewline : character ≠ '\n') :
    (position.past character).column = position.column + 1 := by
  rw [past, Step.ofChar_eq_plain noTab noNewline]
  rfl

@[simp] theorem line_past_newline :
    (position.past '\n').line = position.line + 1 := rfl

theorem line_past_of_ne (noNewline : character ≠ '\n') :
    (position.past character).line = position.line := by
  by_cases tab : character = '\t'
  · subst tab
    rfl
  · rw [past, Step.ofChar_eq_plain tab noNewline]
    rfl

/-- Each newline leads one line on, and nothing else does. -/
theorem line_foldl_past :
    (characters.foldl past position).line =
      position.line + characters.count '\n' := by
  induction characters generalizing position with
  | nil => simp
  | cons character rest inductionHypothesis =>
      rw [List.foldl_cons, inductionHypothesis]
      by_cases newline : character = '\n'
      · subst newline
        rw [line_past_newline, List.count_cons_self]
        omega
      · rw [line_past_of_ne newline, List.count_cons_of_ne newline]

/-- Along one line, reading finds the column that the characters lead to. -/
theorem columnAfter_foldl_past
    (position : Position)
    (noNewline : '\n' ∉ characters) :
    ColumnAfter position.column characters
      (characters.foldl past position).column := by
  induction characters generalizing position with
  | nil => exact .nil position.column
  | cons character rest inductionHypothesis =>
      obtain ⟨here, onward⟩ := List.ne_and_not_mem_of_not_mem_cons noNewline
      have behind := inductionHypothesis (position.past character) onward
      by_cases tab : character = '\t'
      · subst tab
        exact .tab (isLeast_nextTabStop position.column) behind
      · rw [column_past_of_ne tab here.symm] at behind
        exact .other tab behind

end Steps

section LastLine

variable {characters : List Char}

/-- The characters behind the last newline, and all if there is none. -/
def lastLine (characters : List Char) : List Char :=
  characters.rtakeWhile (· ≠ '\n')

theorem newline_notMem_lastLine : '\n' ∉ lastLine characters := by
  intro member
  simpa using List.mem_rtakeWhile_imp member

theorem lastLine_of_notMem (noNewline : '\n' ∉ characters) :
    lastLine characters = characters := by
  refine List.rtakeWhile_eq_self_iff.mpr ?_
  intro character member
  simpa using ne_of_mem_of_not_mem member noNewline

/-- A newline stands right before the last line. -/
theorem exists_eq_append_lastLine (newline : '\n' ∈ characters) :
    ∃ front, characters = front ++ '\n' :: lastLine characters := by
  let lines := characters.rdropWhile (· ≠ '\n')
  have nonempty : lines ≠ [] := by
    intro empty
    simpa using List.rdropWhile_eq_nil_iff.mp empty '\n' newline
  have last : lines.getLast nonempty = '\n' := by
    simpa [lines] using
      List.rdropWhile_last_not (· ≠ '\n') characters nonempty
  refine ⟨lines.dropLast, ?_⟩
  calc
    characters = lines ++ lastLine characters :=
      List.rdropWhile_append_rtakeWhile.symm
    _ = lines.dropLast ++ [lines.getLast nonempty] ++
        lastLine characters := by
      rw [List.dropLast_append_getLast]
    _ = lines.dropLast ++ '\n' :: lastLine characters := by
      rw [last, List.append_assoc]
      rfl

/-- What stands before the last newline does not matter for the column. -/
theorem columnAfter_lastLine
    (position : Position)
    (characters : List Char) :
    ColumnAfter (if '\n' ∈ characters then 1 else position.column)
      (lastLine characters) (characters.foldl past position).column := by
  split
  case isTrue newline =>
    obtain ⟨front, split⟩ := exists_eq_append_lastLine newline
    -- Whatever the front led to, the newline behind it starts in the first
    -- column.
    have read : characters.foldl past position =
        (lastLine characters).foldl past
          ((front.foldl past position).past '\n') := by
      conv_lhs => rw [split, List.foldl_append, List.foldl_cons]
    rw [read]
    exact columnAfter_foldl_past ((front.foldl past position).past '\n')
      newline_notMem_lastLine
  case isFalse noNewline =>
    rw [lastLine_of_notMem noNewline]
    exact columnAfter_foldl_past position noNewline

end LastLine

/-- Where a text leads, from any position. The file stays, the offset grows by
the characters of the text, and the line by its newlines. The column depends on
the last line alone: it is the one column that this line leads to from the first
column, or from the column of the position if the text has no newline. Behind a
tab it is known up to whole tab widths, and without a tab it grows by the
characters of the line. A valid position leads to a valid one. -/
theorem advanceBy_in_closed_form (position : Position) (text : String) :
    let reached := position.advanceBy text
    let line := lastLine text.toList
    let start := if '\n' ∈ text.toList then 1 else position.column
    reached.file = position.file ∧
      reached.offset = position.offset + text.length ∧
      reached.line = position.line + text.toList.count '\n' ∧
      (∀ column, ColumnAfter start line column ↔ column = reached.column) ∧
      (∀ front back, line = front ++ '\t' :: back → '\t' ∉ back →
        reached.column ≡ 1 + back.length [ZMOD 8]) ∧
      ('\t' ∉ line → reached.column = start + line.length) ∧
      (position.Valid → reached.Valid) := by
  intro reached line start
  have along : ColumnAfter start line reached.column :=
    columnAfter_lastLine position text.toList
  refine ⟨file_advanceBy position text, offset_advanceBy position text,
    line_foldl_past, ?_, ?_, along.eq_add_length,
    fun valid => valid.advanceBy text⟩
  · intro column
    constructor
    · intro other
      exact other.unique along
    · rintro rfl
      exact along
  · intro front back split noTab
    rw [split] at along
    exact along.modEq_add_length noTab

/-- A line break, and a tab on the line behind it. -/
theorem advanceBy_in_closed_form_of_tabbed :
    let position : Position := ⟨⟨"f", 5⟩, 2, 3⟩
    let reached := position.advanceBy "x\ny\tzz"
    lastLine "x\ny\tzz".toList = ['y'] ++ '\t' :: ['z', 'z'] ∧
      '\t' ∉ ['z', 'z'] ∧
      reached.column ≡ 3 [ZMOD 8] ∧
      '\t' ∉ lastLine "x\nyz".toList ∧
      (position.advanceBy "x\nyz").column = 3 ∧
      position.Valid ∧
      reached.Valid := by
  intro position reached
  have split : lastLine "x\ny\tzz".toList = ['y'] ++ '\t' :: ['z', 'z'] := by
    decide
  have noTab : '\t' ∉ ['z', 'z'] := by decide
  have plain : '\t' ∉ lastLine "x\nyz".toList := by decide
  have valid : position.Valid := by decide
  obtain ⟨-, -, -, -, stops, -, stays⟩ :=
    advanceBy_in_closed_form position "x\ny\tzz"
  obtain ⟨-, -, -, -, -, counts, -⟩ :=
    advanceBy_in_closed_form position "x\nyz"
  exact ⟨split, noTab, stops _ _ split noTab, plain, counts plain, valid,
    stays valid⟩

end Position
end Locus
