import Locus.Proofs.Position.Columns

/-!
# Going back over a text

Going back takes off one character and one column each time, whatever was read
there. Over a whole text it always finds the point again that the reading
started from. It finds the position itself when all characters took exactly one
column of one line: apart from a newline none takes less, so nothing makes up
for a tab that took more, and nothing leads back to a line before.
-/

namespace Locus
namespace Position

variable {position : Position} {character : Char} {characters : List Char}

theorem eq_iff_equiv_and_place_eq {first second : Position} :
    first = second ↔ first ≈ second ∧ first.place = second.place := by
  constructor
  · rintro rfl
    exact ⟨Setoid.refl first, rfl⟩
  · rintro ⟨tied, place⟩
    rw [equiv_iff] at tied
    rw [place_eq_iff] at place
    cases first
    cases second
    simp_all

theorem iterate_retreat (position : Position) (count : Nat) :
    retreat^[count] position =
      { position with
        offset := position.offset - count
        column := position.column - count } := by
  induction count generalizing position with
  | zero => simp
  | succ count inductionHypothesis =>
      rw [Function.iterate_succ_apply, inductionHypothesis]
      simp only [retreat, Nat.cast_succ, sub_sub, add_comm]

theorem advance_plain_retreat (position : Position) :
    position.retreat.advance .plain = position := by
  simp [advance, retreat]

theorem retreat_injective : Function.Injective retreat := by
  intro first second equal
  rw [← advance_plain_retreat first, equal, advance_plain_retreat]

/-- A property of a position and the character read there holds all along a
text. -/
def AtEach (property : Position → Char → Prop) :
    Position → List Char → Prop
  | _, [] => True
  | position, character :: rest =>
      property position character ∧
        AtEach property (position.past character) rest

theorem atEach_of_forall
    {property : Position → Char → Prop}
    (holds : ∀ here, ∀ character ∈ characters, property here character) :
    AtEach property position characters := by
  induction characters generalizing position with
  | nil => trivial
  | cons character rest inductionHypothesis =>
      exact ⟨holds position character List.mem_cons_self,
        inductionHypothesis fun here other member =>
          holds here other (List.mem_cons_of_mem character member)⟩

/-- The character leads exactly one column on. -/
def TakesOneColumn (position : Position) (character : Char) : Prop :=
  (position.past character).column = position.column + 1

theorem nextTabStop_eq_add_one_iff {column : Int} :
    nextTabStop column = column + 1 ↔ 8 ∣ column := by
  unfold nextTabStop tabWidth
  omega

theorem takesOneColumn_iff (noNewline : character ≠ '\n') :
    position.TakesOneColumn character ↔
      (character = '\t' → 8 ∣ position.column) := by
  by_cases tab : character = '\t'
  · subst tab
    rw [TakesOneColumn, column_past_tab, nextTabStop_eq_add_one_iff]
    exact (imp_iff_right rfl).symm
  · exact iff_of_true (column_past_of_ne tab noNewline)
      fun isTab => absurd isTab tab

/-- Without a newline the condition on tabs is the condition on columns. -/
theorem atEach_takesOneColumn_iff (noNewline : '\n' ∉ characters) :
    AtEach TakesOneColumn position characters ↔
      AtEach (fun here character => character = '\t' → 8 ∣ here.column)
        position characters := by
  induction characters generalizing position with
  | nil => rfl
  | cons character rest inductionHypothesis =>
      obtain ⟨here, onward⟩ := List.ne_and_not_mem_of_not_mem_cons noNewline
      exact and_congr (takesOneColumn_iff here.symm)
        (inductionHypothesis onward)

theorem add_one_le_column_past (noNewline : character ≠ '\n') :
    position.column + 1 ≤ (position.past character).column := by
  by_cases tab : character = '\t'
  · subst tab
    exact lt_nextTabStop position.column
  · exact (column_past_of_ne tab noNewline).ge

/-- No character of a line takes less than one column. -/
theorem add_length_le_column_foldl_past
    (position : Position)
    (noNewline : '\n' ∉ characters) :
    position.column + characters.length ≤
      (characters.foldl past position).column := by
  induction characters generalizing position with
  | nil => simp
  | cons character rest inductionHypothesis =>
      obtain ⟨here, onward⟩ := List.ne_and_not_mem_of_not_mem_cons noNewline
      have first : position.column + 1 ≤ (position.past character).column :=
        add_one_le_column_past here.symm
      have others := inductionHypothesis (position.past character) onward
      rw [List.foldl_cons, List.length_cons]
      omega

/-- The columns of a line add up to its length only if each character took
one. -/
theorem column_foldl_past_eq_add_length_iff
    (position : Position)
    (noNewline : '\n' ∉ characters) :
    (characters.foldl past position).column =
        position.column + characters.length ↔
      AtEach TakesOneColumn position characters := by
  induction characters generalizing position with
  | nil => simp [AtEach]
  | cons character rest inductionHypothesis =>
      obtain ⟨here, onward⟩ := List.ne_and_not_mem_of_not_mem_cons noNewline
      have first : position.column + 1 ≤ (position.past character).column :=
        add_one_le_column_past here.symm
      have others :=
        add_length_le_column_foldl_past (position.past character) onward
      -- Neither the first character nor the rest takes less than its length,
      -- so the sum is exact only if both are.
      rw [AtEach, TakesOneColumn, ← inductionHypothesis _ onward,
        List.foldl_cons, List.length_cons]
      omega

/-- A newline goes back to the first column, so it takes one column only from
the column before that. -/
theorem newline_notMem_of_atEach
    (counted : 0 < position.column)
    (evenly : AtEach TakesOneColumn position characters) :
    '\n' ∉ characters := by
  induction characters generalizing position with
  | nil => exact List.not_mem_nil
  | cons character rest inductionHypothesis =>
      obtain ⟨first, others⟩ := evenly
      have further : 0 < (position.past character).column := by
        rw [first]
        omega
      refine List.not_mem_cons_of_ne_of_not_mem ?_
        (inductionHypothesis further others)
      rintro rfl
      rw [TakesOneColumn, column_past_newline] at first
      omega

section Text

variable (position : Position) (text : String)

/-- Going back over a text leads to the point where reading started. The lines
are not taken back, and of the columns one for each character. -/
theorem iterate_retreat_advanceBy :
    retreat^[text.length] (position.advanceBy text) =
      { position with
        line := (position.advanceBy text).line
        column := (position.advanceBy text).column - text.length } := by
  rw [iterate_retreat, file_advanceBy, offset_advanceBy,
    Int.add_sub_cancel]

theorem iterate_retreat_advanceBy_equiv :
    retreat^[text.length] (position.advanceBy text) ≈ position := by
  rw [iterate_retreat_advanceBy, equiv_iff]

theorem iterate_retreat_advanceBy_eq_iff :
    retreat^[text.length] (position.advanceBy text) = position ↔
      '\n' ∉ text.toList ∧
        AtEach TakesOneColumn position text.toList := by
  have lines : (position.advanceBy text).line = position.line ↔
      '\n' ∉ text.toList := by
    rw [← List.count_eq_zero, advanceBy, line_foldl_past]
    omega
  rw [eq_iff_equiv_and_place_eq,
    and_iff_right (iterate_retreat_advanceBy_equiv position text),
    place_eq_iff, iterate_retreat_advanceBy, lines, sub_eq_iff_eq_add]
  refine and_congr_right fun noNewline => ?_
  rw [← column_foldl_past_eq_add_length_iff position noNewline,
    String.length_toList]
  rfl

/-- Going back over plain characters and reading them leads to where the way
back began. Read from there they take one column each, so going back over them
leads there again, and it leads to one position from one position only. -/
theorem advanceBy_iterate_retreat
    (noTab : '\t' ∉ text.toList)
    (noNewline : '\n' ∉ text.toList) :
    (retreat^[text.length] position).advanceBy text = position := by
  have evenly :
      AtEach TakesOneColumn (retreat^[text.length] position) text.toList := by
    refine (atEach_takesOneColumn_iff noNewline).mpr (atEach_of_forall ?_)
    intro here character member tab
    exact absurd (tab ▸ member) noTab
  apply retreat_injective.iterate text.length
  exact (iterate_retreat_advanceBy_eq_iff _ text).mpr ⟨noNewline, evenly⟩

end Text

/-- Going back undoes reading just when each character took one column of one
line. As many steps back as the text has characters always lead to the point
that the reading started from. They lead to the position itself if and only if
the text has no newline and each tab is met at a column divisible by eight; in
other words, if there is no newline and each character takes one column, where
the first condition follows from the second for columns counted from one. Going
back over plain characters first and reading them then always leads to the
position again. -/
theorem retreat_undoes_reading_iff (position : Position) (text : String) :
    let back := retreat^[text.length] (position.advanceBy text)
    back ≈ position ∧
      (back = position ↔
        '\n' ∉ text.toList ∧
          AtEach (fun here character => character = '\t' → 8 ∣ here.column)
            position text.toList) ∧
      (back = position ↔
        '\n' ∉ text.toList ∧ AtEach TakesOneColumn position text.toList) ∧
      (0 < position.column →
        (back = position ↔ AtEach TakesOneColumn position text.toList)) ∧
      ('\t' ∉ text.toList → '\n' ∉ text.toList →
        (retreat^[text.length] position).advanceBy text = position) := by
  intro back
  have undone : back = position ↔
      '\n' ∉ text.toList ∧ AtEach TakesOneColumn position text.toList :=
    iterate_retreat_advanceBy_eq_iff position text
  refine ⟨iterate_retreat_advanceBy_equiv position text, ?_, undone, ?_,
    advanceBy_iterate_retreat position text⟩
  · exact undone.trans (and_congr_right atEach_takesOneColumn_iff)
  · intro counted
    exact undone.trans (and_iff_right_of_imp (newline_notMem_of_atEach counted))

/-- A tab right before a tab stop, and letters behind it. -/
theorem retreat_undoes_reading_iff_of_narrow_tab :
    let position : Position := ⟨⟨"f", 8⟩, 1, 8⟩
    0 < position.column ∧
      AtEach TakesOneColumn position "\tab".toList ∧
      retreat^["\tab".length] (position.advanceBy "\tab") = position ∧
      '\t' ∉ "ab".toList ∧
      '\n' ∉ "ab".toList ∧
      (retreat^["ab".length] position).advanceBy "ab" = position := by
  intro position
  have counted : 0 < position.column := by decide
  have evenly : AtEach TakesOneColumn position "\tab".toList :=
    ⟨rfl, rfl, rfl, trivial⟩
  have noTab : '\t' ∉ "ab".toList := by decide
  have noNewline : '\n' ∉ "ab".toList := by decide
  obtain ⟨-, -, -, undone, -⟩ := retreat_undoes_reading_iff position "\tab"
  obtain ⟨-, -, -, -, redone⟩ := retreat_undoes_reading_iff position "ab"
  exact ⟨counted, evenly, (undone counted).mpr evenly, noTab, noNewline,
    redone noTab noNewline⟩

end Position
end Locus
