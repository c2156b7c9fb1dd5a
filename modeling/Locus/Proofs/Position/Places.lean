import Locus.Proofs.Position.OnText
import Locus.Proofs.Rendering
import Mathlib.Data.Prod.Lex

/-!
# Lines and columns in the order of the text

Offset, line and column are counted side by side, and only the offset is
compared. Still the line and column tell the same order: a newline leads to a
later line, and every other character, a tab at any column included, to a later
column of the same line. Two positions of a text therefore never share line and
column, and messages tell them apart.
-/

namespace Locus
namespace Position

/-- Line and column of the position; the line decides first. -/
def place (position : Position) : ℤ ×ₗ ℤ :=
  toLex (position.line, position.column)

theorem place_lt_iff {first second : Position} :
    first.place < second.place ↔
      first.line < second.line ∨
        first.line = second.line ∧ first.column < second.column :=
  Prod.Lex.toLex_lt_toLex

theorem place_eq_iff {first second : Position} :
    first.place = second.place ↔
      first.line = second.line ∧ first.column = second.column :=
  toLex_inj.trans Prod.mk_inj

/-- The next tab stop is to the right, also of a column before the first. -/
theorem lt_nextTabStop (column : Int) : column < nextTabStop column := by
  unfold nextTabStop tabWidth
  omega

section Reading

variable {position : Position} {text : String}

theorem place_lt_place_past (character : Char) :
    position.place < (position.past character).place := by
  rw [place_lt_iff, past]
  cases Step.ofChar character with
  | tab => exact Or.inr ⟨rfl, lt_nextTabStop position.column⟩
  | newline => exact Or.inl (Int.lt_succ position.line)
  | plain => exact Or.inr ⟨rfl, Int.lt_succ position.column⟩

theorem place_le_place_foldl_past (characters : List Char) :
    position.place ≤ (characters.foldl past position).place := by
  induction characters generalizing position with
  | nil => rfl
  | cons character rest inductionHypothesis =>
      exact (place_lt_place_past character).le.trans inductionHypothesis

/-- Reading a text that is not empty leads to a later line, or to a later
column of the same line. -/
theorem place_lt_place_advanceBy (notEmpty : text ≠ "") :
    position.place < (position.advanceBy text).place := by
  unfold advanceBy
  cases characters : text.toList with
  | nil => exact absurd (String.toList_eq_nil_iff.mp characters) notEmpty
  | cons character rest =>
      exact (place_lt_place_past character).trans_le
        (place_le_place_foldl_past rest)

theorem lt_advanceBy (notEmpty : text ≠ "") :
    position < position.advanceBy text := by
  have length : text.length ≠ 0 := by simpa using notEmpty
  rw [lt_iff, Point.lt_iff]
  refine Or.inr ⟨(file_advanceBy position text).symm, ?_⟩
  rw [offset_advanceBy]
  omega

end Reading

section After

variable {file text : String} {first last : Nat}

/-- A longer prefix of the text is read by reading more text. -/
theorem exists_after_eq_advanceBy
    (file : String)
    (shorter : first < last)
    (fits : last ≤ text.length) :
    ∃ piece ≠ "",
      after file text last = (after file text first).advanceBy piece := by
  let piece := (text.toList.drop first).take (last - first)
  have length : piece.length = last - first := by
    rw [List.length_take, List.length_drop, String.length_toList]
    omega
  have notEmpty : String.ofList piece ≠ "" := by
    intro empty
    rw [String.ofList_eq_empty_iff] at empty
    simp [empty] at length
    omega
  refine ⟨String.ofList piece, notEmpty, ?_⟩
  have next : (String.ofList piece).toList <+: text.toList.drop first := by
    rw [String.toList_ofList]
    exact List.take_prefix _ _
  rw [← after_add next, String.length_ofList, length,
    Nat.add_sub_cancel' shorter.le]

/-- Lines and columns rise along the text. -/
theorem place_after_lt_place_after
    (file : String)
    (shorter : first < last)
    (fits : last ≤ text.length) :
    (after file text first).place < (after file text last).place := by
  obtain ⟨piece, notEmpty, read⟩ :=
    exists_after_eq_advanceBy file shorter fits
  rw [read]
  exact place_lt_place_advanceBy notEmpty

theorem after_lt_after_iff
    (firstFits : first ≤ text.length)
    (lastFits : last ≤ text.length) :
    after file text first < after file text last ↔ first < last := by
  rw [← Std.not_le, after_le_after_iff lastFits firstFits, not_le]

theorem place_after_lt_place_after_iff
    (firstFits : first ≤ text.length)
    (lastFits : last ≤ text.length) :
    (after file text first).place < (after file text last).place ↔
      first < last := by
  constructor
  · intro earlier
    rcases lt_trichotomy first last with shorter | rfl | longer
    · exact shorter
    · exact absurd earlier (lt_irrefl _)
    · have later := place_after_lt_place_after file longer firstFits
      exact absurd earlier later.asymm
  · intro shorter
    exact place_after_lt_place_after file shorter lastFits

theorem place_after_eq_place_after_iff
    (firstFits : first ≤ text.length)
    (lastFits : last ≤ text.length) :
    (after file text first).place = (after file text last).place ↔
      first = last := by
  constructor
  · intro same
    rcases lt_trichotomy first last with shorter | rfl | longer
    · exact absurd same (place_after_lt_place_after file shorter lastFits).ne
    · rfl
    · exact absurd same (place_after_lt_place_after file longer firstFits).ne'
  · rintro rfl
    rfl

/-- What is shown of a position of a text is its line and column. -/
theorem render_after_eq_render_after_iff :
    (after file text first).render = (after file text last).render ↔
      (after file text first).place = (after file text last).place := by
  rw [render_eq_iff, place_eq_iff, file_after, file_after]
  exact and_iff_right rfl

end After

/-- Lines and columns tell the order of the text. Reading a text that is not
empty stays in the file and leads to a position that is later, both by its
offset and by its line and column, whatever position it starts from. Among the
positions of one text the order of offsets is the order of lines and columns,
and no two of them share line and column or are shown alike. -/
theorem place_order_eq_text_order :
    (∀ (position : Position) (text : String), text ≠ "" →
      (position.advanceBy text).file = position.file ∧
        position < position.advanceBy text ∧
        position.place < (position.advanceBy text).place) ∧
    (∀ (file text : String) (first last : Nat),
      first ≤ text.length → last ≤ text.length →
        (after file text first < after file text last ↔
          (after file text first).place < (after file text last).place) ∧
        ((after file text first).line = (after file text last).line ∧
            (after file text first).column = (after file text last).column ↔
          first = last) ∧
        ((after file text first).render = (after file text last).render ↔
          first = last)) := by
  constructor
  · intro position text notEmpty
    exact ⟨file_advanceBy position text, lt_advanceBy notEmpty,
      place_lt_place_advanceBy notEmpty⟩
  · intro file text first last firstFits lastFits
    have places : (after file text first).place =
        (after file text last).place ↔ first = last :=
      place_after_eq_place_after_iff firstFits lastFits
    exact ⟨(after_lt_after_iff firstFits lastFits).trans
      (place_after_lt_place_after_iff firstFits lastFits).symm,
      place_eq_iff.symm.trans places,
      render_after_eq_render_after_iff.trans places⟩

/-- Behind the tab the column is greater than behind the newline, yet the
position is before it and shown differently. A tab goes right from a column
before the first one as well. -/
theorem place_order_eq_text_order_of_tabbed :
    "\t" ≠ "" ∧
    place ⟨⟨"f", 3⟩, -1, -7⟩ < (advanceBy ⟨⟨"f", 3⟩, -1, -7⟩ "\t").place ∧
    2 ≤ "a\tb\nc".length ∧ 4 ≤ "a\tb\nc".length ∧
    (after "f" "a\tb\nc" 4).column < (after "f" "a\tb\nc" 2).column ∧
    after "f" "a\tb\nc" 2 < after "f" "a\tb\nc" 4 ∧
    (after "f" "a\tb\nc" 2).render ≠ (after "f" "a\tb\nc" 4).render := by
  obtain ⟨reading, positions⟩ := place_order_eq_text_order
  obtain ⟨order, -, shown⟩ :=
    positions "f" "a\tb\nc" 2 4 (by decide) (by decide)
  have later : place (after "f" "a\tb\nc" 2) <
      place (after "f" "a\tb\nc" 4) :=
    place_lt_iff.mpr (by decide)
  exact ⟨by decide, (reading _ "\t" (by decide)).2.2, by decide, by decide,
    by decide, order.mpr later, shown.not.mpr (by decide)⟩

end Position
end Locus
