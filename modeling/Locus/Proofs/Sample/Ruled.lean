import Locus.Proofs.Position.OnText
import Locus.Sample

/-!
# The sample text

Sample positions are computed from their offsets by division and remainder.
Reading reaches the same positions in every text that is ruled like the sample
text: it has no tabs, and newlines stand in the tenth column of every line and
nowhere else. A newline still counts to the line it ends, so the column after
the tenth is the first one of the next line.
-/

namespace Locus

namespace Sample

/-- The text has no tabs, and its newlines are its tenth, twentieth, thirtieth
character and so on. -/
def Ruled (text : String) : Prop :=
  ∀ index (inside : index < text.toList.length),
    text.toList[index] ≠ '\t' ∧
      (text.toList[index] = '\n' ↔ 10 ∣ index + 1)

instance (text : String) : Decidable (Ruled text) :=
  inferInstanceAs (Decidable (∀ index (_ : index < text.toList.length), _))

section Step

variable {offset : Int} {character : Char}

/-- One character further, the quotient goes up by one after each tenth offset
and the remainder starts again. -/
theorem past_positionAt
    (noTab : character ≠ '\t')
    (ruled : character = '\n' ↔ lineWidth ∣ offset) :
    (positionAt offset).past character = positionAt (offset + 1) := by
  unfold lineWidth at ruled
  by_cases newline : character = '\n'
  · have lastColumn := ruled.mp newline
    subst newline
    simp only [Position.past, Step.ofChar, Position.advance, positionAt,
      lineWidth, Position.mk.injEq, true_and]
    omega
  · have otherColumn := ruled.not.mp newline
    rw [Position.past, Step.ofChar_eq_plain noTab newline]
    simp only [Position.advance, positionAt, lineWidth, Position.mk.injEq,
      true_and]
    omega

end Step

section Ruled

variable {text : String} (ruled : Ruled text)

include ruled

/-- The positions of a ruled text are the sample positions. -/
theorem Ruled.after_eq_positionAt
    {count : Nat}
    (fits : count ≤ text.length) :
    Position.after file text count = positionAt (count + 1) := by
  induction count with
  | zero => rfl
  | succ count inductionHypothesis =>
      have inside : count < text.toList.length := by
        rw [String.length_toList]
        exact fits
      obtain ⟨noTab, newline⟩ := ruled count inside
      have next : text.toList[count]? = some text.toList[count] :=
        List.getElem?_eq_getElem inside
      rw [Position.after_succ next, inductionHypothesis (Nat.le_of_succ_le fits)]
      apply past_positionAt noTab
      rw [newline, lineWidth]
      omega

/-- Reading on from a sample position leads to a sample position. -/
theorem Ruled.advanceBy_positionAt
    {first last : Nat}
    (ordered : first ≤ last)
    (fits : last ≤ text.length) :
    (positionAt (first + 1)).advanceBy
        (String.ofList ((text.toList.drop first).take (last - first))) =
      positionAt (last + 1) := by
  have next : (String.ofList
      ((text.toList.drop first).take (last - first))).toList <+:
        text.toList.drop first := by
    rw [String.toList_ofList]
    exact List.take_prefix _ _
  have length : (String.ofList
      ((text.toList.drop first).take (last - first))).length =
        last - first := by
    rw [String.length_ofList, List.length_take, List.length_drop,
      String.length_toList]
    omega
  rw [← ruled.after_eq_positionAt (le_trans ordered fits),
    ← Position.after_add next, length, Nat.add_sub_cancel' ordered,
    ruled.after_eq_positionAt fits]

end Ruled

/-- Line and column tell the offset of a sample position. -/
theorem offset_eq_of_place_eq
    {first last : Int}
    (sameLine : (positionAt first).line = (positionAt last).line)
    (sameColumn : (positionAt first).column = (positionAt last).column) :
    first = last := by
  simp only [positionAt, lineWidth] at sameLine sameColumn
  omega

/-- Sample positions are the positions of a ruled text. The one at an offset is
reached from the origin by the characters before the offset, and from an earlier
one by the characters between the two. No two sample positions share line and
column. -/
theorem positionAt_reads_ruled_text :
    (∀ (text : String) (offset : Int), Ruled text → 1 ≤ offset →
      offset - 1 ≤ text.length →
        positionAt offset = (Position.origin "file name").advanceBy
          (String.ofList (text.toList.take (offset - 1).toNat))) ∧
    (∀ (text : String) (first last : Int), Ruled text → 1 ≤ first →
      first ≤ last → last - 1 ≤ text.length →
        (positionAt first).advanceBy (String.ofList
            ((text.toList.drop (first - 1).toNat).take (last - first).toNat)) =
          positionAt last) ∧
    (∀ first last : Int,
      (positionAt first).line = (positionAt last).line ∧
          (positionAt first).column = (positionAt last).column ↔
        first = last) := by
  refine ⟨?_, ?_, ?_⟩
  · intro text offset ruled positive fits
    obtain ⟨count, rfl⟩ : ∃ count : Nat, offset = count + 1 :=
      ⟨(offset - 1).toNat, by omega⟩
    have counted : ((count : Int) + 1 - 1).toNat = count := by omega
    rw [counted]
    exact (ruled.after_eq_positionAt (by omega)).symm
  · intro text first last ruled positive ordered fits
    obtain ⟨front, rfl⟩ : ∃ front : Nat, first = front + 1 :=
      ⟨(first - 1).toNat, by omega⟩
    obtain ⟨back, rfl⟩ : ∃ back : Nat, last = back + 1 :=
      ⟨(last - 1).toNat, by omega⟩
    have frontCounted : ((front : Int) + 1 - 1).toNat = front := by omega
    have between : ((back : Int) + 1 - (front + 1)).toNat = back - front := by
      omega
    rw [frontCounted, between]
    exact ruled.advanceBy_positionAt (by omega) (by omega)
  · intro first last
    constructor
    · rintro ⟨sameLine, sameColumn⟩
      exact offset_eq_of_place_eq sameLine sameColumn
    · rintro rfl
      exact ⟨rfl, rfl⟩

/-- Two full lines and the beginning of a third one. -/
def ruledText : String :=
  "abcdefghi\nklmnopqrs\nuv"

/-- The tenth position stands before the first newline and the next one behind
it. From there the text goes on to its end. -/
theorem positionAt_reads_ruled_text_over_lines :
    Ruled ruledText ∧
    positionAt 10 = (Position.origin "file name").advanceBy "abcdefghi" ∧
    positionAt 11 = (Position.origin "file name").advanceBy "abcdefghi\n" ∧
    (positionAt 11).advanceBy "klmnopqrs\nuv" = positionAt 23 ∧
    (positionAt 10).column = 10 ∧ (positionAt 11).line = 2 ∧
    (positionAt 11).column = 1 := by
  obtain ⟨fromOrigin, further, -⟩ := positionAt_reads_ruled_text
  have ruled : Ruled ruledText := by decide
  exact ⟨ruled, fromOrigin ruledText 10 ruled (by decide) (by decide),
    fromOrigin ruledText 11 ruled (by decide) (by decide),
    further ruledText 11 23 ruled (by decide) (by decide) (by decide),
    by decide, by decide, by decide⟩

end Sample

end Locus
