import Locus.Interval.Basic

/-!
# Ranges

A range is a location that may have gaps: a list of intervals. The empty range
means that no location is known. A range is canonical when its intervals are
valid and every interval stops strictly before the next one starts; nothing
forces a range to be canonical. Ranges compare interval by interval, and a
range comes before its own continuations.
-/

namespace Locus

/-- A possibly discontiguous location. -/
structure Range where
  /-- The stretches of text that make up the location. -/
  intervals : List Interval
  deriving DecidableEq

/-- The range of a single interval. -/
def Interval.toRange (interval : Interval) : Range :=
  ⟨[interval]⟩

namespace Range

instance : Ord Range where
  compare := compareOn intervals

instance : LT Range := ltOfOrd

instance : LE Range := leOfOrd

instance : Std.TransOrd Range :=
  inferInstanceAs (Std.TransCmp (compareOn Range.intervals))

instance : Std.IsLinearPreorder Range := .of_ord

/-- Ranges are equivalent when their intervals are, one by one. -/
instance : Setoid Range := tiedSetoid Range

instance (first second : Range) : Decidable (first ≈ second) :=
  inferInstanceAs (Decidable (Tied first second))

instance : EmptyCollection Range where
  emptyCollection := ⟨[]⟩

@[simp] theorem intervals_empty : (∅ : Range).intervals = [] := rfl

@[simp] theorem intervals_toRange (interval : Interval) :
    interval.toRange.intervals = [interval] := rfl

/-- The number of intervals. -/
def size (range : Range) : Nat :=
  range.intervals.length

/-- Where the range starts, if it is not empty. -/
def start? (range : Range) : Option Position :=
  range.intervals.head?.map Interval.start

/-- Where the range stops, if it is not empty. -/
def stop? (range : Range) : Option Position :=
  range.intervals.getLast?.map Interval.stop

/-- The outer bound of a range that is not empty; it covers the gaps. -/
def outer? (range : Range) : Option Interval :=
  match range.start?, range.stop? with
  | some start, some stop => some ⟨start, stop⟩
  | _, _ => none

@[simp] theorem outer?_empty : (∅ : Range).outer? = none := rfl

@[simp] theorem outer?_toRange (interval : Interval) :
    interval.toRange.outer? = some interval := rfl

/-- Every interval stops strictly before the next one starts. -/
def Separated : List Interval → Prop
  | [] => True
  | [_] => True
  | interval :: next :: rest =>
      interval.stop < next.start ∧ Separated (next :: rest)

instance decidableSeparated :
    (intervals : List Interval) → Decidable (Separated intervals)
  | [] => .isTrue trivial
  | [_] => .isTrue trivial
  | interval :: next :: rest =>
      have := decidableSeparated (next :: rest)
      inferInstanceAs (Decidable (interval.stop < next.start ∧ _))

/-- All intervals are valid and neighbours are separated. -/
def Canonical (range : Range) : Prop :=
  (∀ interval ∈ range.intervals, interval.Valid) ∧ Separated range.intervals

instance (range : Range) : Decidable range.Canonical :=
  inferInstanceAs (Decidable (_ ∧ _))

@[simp] theorem canonical_empty : (∅ : Range).Canonical := by
  simp [Canonical, Separated]

@[simp] theorem canonical_toRange (interval : Interval) :
    interval.toRange.Canonical ↔ interval.Valid := by
  simp [Canonical, Separated]

/-- The range between two positions in either order. Tied positions are
exchanged: the second becomes the start. -/
def between (first second : Position) : Range :=
  (Interval.spanning second first).toRange

end Range

end Locus
