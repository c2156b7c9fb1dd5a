import Locus.Order

/-!
# Points of named texts

A point names a text and counts its characters. Points are what comparison
sees of a location: texts are ordered by name, and points of one text by
offset.
-/

namespace Locus

/-- A place in a named text. -/
structure Point where
  /-- Name of the text; may be empty. -/
  file : String
  /-- Number of the place in its text, counted from one. -/
  offset : Int
  deriving DecidableEq

namespace Point

instance : Ord Point where
  compare := compareLex (compareOn file) (compareOn offset)

instance : LT Point := ltOfOrd

instance : LE Point := leOfOrd

instance : Std.TransOrd Point :=
  inferInstanceAs
    (Std.TransCmp (compareLex (compareOn Point.file) (compareOn Point.offset)))

instance : Std.IsLinearPreorder Point := .of_ord

/-- Only equal points are tied. -/
instance : Std.LawfulEqOrd Point where
  eq_of_compare {first second} equal := by
    have both := compareLex_eq_eq.mp equal
    cases first
    cases second
    simp only [mk.injEq]
    exact ⟨Std.LawfulEqOrd.eq_of_compare both.1,
      Std.LawfulEqOrd.eq_of_compare both.2⟩

@[simp] theorem tied_iff {first second : Point} :
    Tied first second ↔ first = second :=
  ⟨Std.LawfulEqOrd.eq_of_compare, fun equal => equal ▸ Tied.refl first⟩

/-- The name of the text decides first, and the offset within one text. -/
theorem lt_iff {first second : Point} :
    first < second ↔
      first.file < second.file ∨
        first.file = second.file ∧ first.offset < second.offset := by
  change (compare first.file second.file).then
    (compare first.offset second.offset) = .lt ↔ _
  rw [Ordering.then_eq_lt, Int.compare_eq_lt, Std.LawfulEqOrd.compare_eq_iff_eq]
  exact or_congr_left compareOfLessAndEq_eq_lt

end Point

end Locus
