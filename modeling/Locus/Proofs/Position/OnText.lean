import Locus.Position.Advance
import Locus.Proofs.Order

/-!
# The positions of a text

A text has one position after each of its prefixes. They are reached from the
origin by reading the prefix, they stand in the order of the prefixes, and the
offset of a position tells how much text lies before it.
-/

namespace Locus
namespace Position

/-- The position after the first characters of a text. -/
def after (file text : String) (count : Nat) : Position :=
  (origin file).advanceBy (String.ofList (text.toList.take count))

/-- The number of characters before the position. -/
def index (position : Position) : Nat :=
  (position.offset - 1).toNat

/-- The position is reached by reading the text from its beginning. -/
def OnText (file text : String) (position : Position) : Prop :=
  ∃ count ≤ text.length, position = after file text count

theorem advanceBy_ofList
    (position : Position)
    (characters : List Char) :
    position.advanceBy (String.ofList characters) =
      characters.foldl Position.past position := by
  rw [advanceBy, String.toList_ofList]

theorem file_advanceBy (position : Position) (text : String) :
    (position.advanceBy text).file = position.file := by
  unfold advanceBy
  induction text.toList generalizing position with
  | nil => rfl
  | cons character rest inductionHypothesis =>
      rw [List.foldl_cons, inductionHypothesis]
      exact file_advance position _

theorem offset_advanceBy (position : Position) (text : String) :
    (position.advanceBy text).offset = position.offset + text.length := by
  rw [← String.length_toList]
  unfold advanceBy
  induction text.toList generalizing position with
  | nil => simp
  | cons character rest inductionHypothesis =>
      rw [List.foldl_cons, inductionHypothesis, past, offset_advance,
        List.length_cons]
      omega

theorem le_advanceBy (position : Position) (text : String) :
    position ≤ position.advanceBy text := by
  rw [le_iff, Point.le_iff_of_file_eq (file_advanceBy position text).symm,
    offset_advanceBy]
  omega

theorem Valid.past
    {position : Position}
    (valid : position.Valid)
    (character : Char) :
    (position.past character).Valid := by
  obtain ⟨offset, line, column⟩ := valid
  unfold Position.past
  cases Step.ofChar character with
  | tab =>
      simp only [advance, nextTabStop, tabWidth, Valid]
      omega
  | newline =>
      simp only [advance, Valid]
      omega
  | plain =>
      simp only [advance, Valid]
      omega

theorem Valid.advanceBy
    {position : Position}
    (valid : position.Valid)
    (text : String) :
    (position.advanceBy text).Valid := by
  unfold Position.advanceBy
  induction text.toList generalizing position with
  | nil => exact valid
  | cons character rest inductionHypothesis =>
      exact inductionHypothesis (valid.past character)

section After

variable {file text : String}

@[simp] theorem after_zero : after file text 0 = origin file :=
  rfl

@[simp] theorem file_after (count : Nat) :
    (after file text count).file = file :=
  file_advanceBy (origin file) _

theorem offset_after {count : Nat} (fits : count ≤ text.length) :
    (after file text count).offset = count + 1 := by
  unfold after
  rw [offset_advanceBy, String.length_ofList, List.length_take,
    String.length_toList, Nat.min_eq_left fits]
  exact Int.add_comm 1 count

theorem index_after {count : Nat} (fits : count ≤ text.length) :
    (after file text count).index = count := by
  rw [index, offset_after fits]
  omega

theorem valid_after (count : Nat) : (after file text count).Valid :=
  (valid_origin file).advanceBy _

/-- Reading a piece that comes next leads to the position after the piece. -/
theorem after_add
    {count : Nat}
    {piece : String}
    (next : piece.toList <+: text.toList.drop count) :
    after file text (count + piece.length) =
      (after file text count).advanceBy piece := by
  have read : (text.toList.drop count).take piece.length = piece.toList := by
    rw [← String.length_toList]
    exact (List.prefix_iff_eq_take.mp next).symm
  unfold after
  rw [List.take_add, read, String.ofList_append, advanceBy_append,
    String.ofList_toList]

theorem after_succ
    {count : Nat}
    {character : Char}
    (next : text.toList[count]? = some character) :
    after file text (count + 1) = (after file text count).past character := by
  unfold after
  rw [advanceBy_ofList, advanceBy_ofList, List.take_add_one, next,
    List.foldl_append]
  rfl

/-- Going back over a plain character leads to the position before it. -/
theorem retreat_after_succ
    {count : Nat}
    {character : Char}
    (next : text.toList[count]? = some character)
    (noTab : character ≠ '\t')
    (noNewline : character ≠ '\n') :
    (after file text (count + 1)).retreat = after file text count := by
  rw [after_succ next, past, Step.ofChar_eq_plain noTab noNewline,
    retreat_advance_plain]

theorem after_le_after_iff
    {first last : Nat}
    (firstFits : first ≤ text.length)
    (lastFits : last ≤ text.length) :
    after file text first ≤ after file text last ↔ first ≤ last := by
  rw [le_iff, Point.le_iff_of_file_eq ((file_after first).trans
    (file_after last).symm), offset_after firstFits, offset_after lastFits]
  omega

end After

section OnText

variable {file text : String} {position : Position}

theorem OnText.valid (onText : position.OnText file text) :
    position.Valid := by
  obtain ⟨count, -, rfl⟩ := onText
  exact valid_after count

theorem onText_origin : (origin file).OnText file text :=
  ⟨0, Nat.zero_le _, rfl⟩

theorem OnText.past
    (onText : position.OnText file text)
    {character : Char}
    (next : text.toList[position.index]? = some character) :
    (position.past character).OnText file text := by
  obtain ⟨count, fits, rfl⟩ := onText
  rw [index_after fits] at next
  refine ⟨count + 1, ?_, (after_succ next).symm⟩
  rw [← String.length_toList]
  exact (List.getElem?_eq_some_iff.mp next).1

theorem OnText.retreat
    (onText : position.OnText file text)
    {count : Nat}
    {character : Char}
    (behind : position.index = count + 1)
    (next : text.toList[count]? = some character)
    (noTab : character ≠ '\t')
    (noNewline : character ≠ '\n') :
    position.retreat.OnText file text := by
  obtain ⟨ownCount, fits, rfl⟩ := onText
  rw [index_after fits] at behind
  subst behind
  exact ⟨count, Nat.le_of_succ_le fits,
    retreat_after_succ next noTab noNewline⟩

theorem OnText.advanceBy
    (onText : position.OnText file text)
    {piece : String}
    (next : piece.toList <+: text.toList.drop position.index) :
    (position.advanceBy piece).OnText file text := by
  obtain ⟨count, fits, rfl⟩ := onText
  rw [index_after fits] at next
  refine ⟨count + piece.length, ?_, (after_add next).symm⟩
  have shorter := next.length_le
  rw [List.length_drop, String.length_toList, String.length_toList] at shorter
  omega

end OnText

end Position
end Locus
