import Locus.Point

/-!
# Positions

A position is a point together with the line and column a reader sees there.
Line and column serve messages only: positions compare as their points do, so
two positions of one point are tied even when they disagree on line or column.
-/

namespace Locus

/-- A point of a named text and the line and column it is shown at. -/
structure Position extends Point where
  /-- Number of the line, counted from one. -/
  line : Int
  /-- Number of the column in its line, counted from one. -/
  column : Int
  deriving DecidableEq

namespace Position

instance : Ord Position where
  compare := compareOn toPoint

instance : LT Position := ltOfOrd

instance : LE Position := leOfOrd

instance : Std.TransOrd Position :=
  inferInstanceAs (Std.TransCmp (compareOn Position.toPoint))

instance : Std.IsLinearPreorder Position := .of_ord

/-- Positions of one point are equivalent. -/
instance : Setoid Position := tiedSetoid Position

instance (first second : Position) : Decidable (first ≈ second) :=
  inferInstanceAs (Decidable (Tied first second))

theorem lt_iff {first second : Position} :
    first < second ↔ first.toPoint < second.toPoint :=
  Iff.rfl

theorem le_iff {first second : Position} :
    first ≤ second ↔ first.toPoint ≤ second.toPoint :=
  Iff.rfl

theorem equiv_iff {first second : Position} :
    first ≈ second ↔ first.toPoint = second.toPoint :=
  @Point.tied_iff first.toPoint second.toPoint

/-- The first position of a text. -/
def origin (file : String) : Position where
  file := file
  offset := 1
  line := 1
  column := 1

/-- All three counts of the position start from one. -/
def Valid (position : Position) : Prop :=
  0 < position.offset ∧ 0 < position.line ∧ 0 < position.column

instance (position : Position) : Decidable position.Valid :=
  inferInstanceAs (Decidable (_ ∧ _ ∧ _))

@[simp] theorem valid_origin (file : String) : (origin file).Valid := by
  simp [origin, Valid]

/-- The lesser of two positions, and the first of them when they are tied. -/
def earlier (first second : Position) : Position :=
  if second < first then second else first

/-- The greater of two positions, and the second of them when they are tied. -/
def later (first second : Position) : Position :=
  if second < first then first else second

theorem earlier_of_le
    {first second : Position}
    (ordered : first ≤ second) :
    first.earlier second = first :=
  if_neg (Std.not_lt.mpr ordered)

theorem later_of_le
    {first second : Position}
    (ordered : first ≤ second) :
    first.later second = second :=
  if_neg (Std.not_lt.mpr ordered)

theorem earlier_le_left (first second : Position) :
    first.earlier second ≤ first := by
  unfold earlier
  split <;> grind

theorem earlier_le_right (first second : Position) :
    first.earlier second ≤ second := by
  unfold earlier
  split <;> grind

theorem le_later_left (first second : Position) :
    first ≤ first.later second := by
  unfold later
  split <;> grind

theorem le_later_right (first second : Position) :
    second ≤ first.later second := by
  unfold later
  split <;> grind

end Position

end Locus
