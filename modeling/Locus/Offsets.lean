import Locus.Range.Basic

/-!
# Sets of offsets

What a location covers within one text can be said without intervals: as the
finite set of its offsets, end points included. Sets of offsets are listed in
strictly ascending order, so two sets with the same members are equal.
-/

namespace Locus

/-- A finite set of offsets. -/
structure OffsetSet where
  /-- The members in ascending order, each once. -/
  toList : List Int
  /-- The list is strictly ascending. -/
  ascending : toList.Pairwise (· < ·)
  deriving DecidableEq

namespace OffsetSet

instance : Membership Int OffsetSet where
  mem offsets offset := offset ∈ offsets.toList

instance (offset : Int) (offsets : OffsetSet) :
    Decidable (offset ∈ offsets) :=
  inferInstanceAs (Decidable (offset ∈ offsets.toList))

@[simp] theorem mem_toList {offset : Int} {offsets : OffsetSet} :
    offset ∈ offsets.toList ↔ offset ∈ offsets :=
  Iff.rfl

/-- Sets with the same members are equal. -/
@[ext] theorem ext
    {left right : OffsetSet}
    (same : ∀ offset, offset ∈ left ↔ offset ∈ right) :
    left = right := by
  obtain ⟨leftList, leftAscending⟩ := left
  obtain ⟨rightList, rightAscending⟩ := right
  have rearranged : leftList.Perm rightList :=
    (List.perm_ext_iff_of_nodup
      (leftAscending.imp Int.ne_of_lt)
      (rightAscending.imp Int.ne_of_lt)).mpr same
  simp only [mk.injEq]
  exact rearranged.eq_of_pairwise
    (fun _ _ _ _ less greater => absurd greater (Int.lt_asymm less))
    leftAscending rightAscending

instance : EmptyCollection OffsetSet where
  emptyCollection := ⟨[], .nil⟩

@[simp] theorem not_mem_empty (offset : Int) :
    offset ∉ (∅ : OffsetSet) :=
  List.not_mem_nil

/-- Number of members. -/
def size (offsets : OffsetSet) : Nat :=
  offsets.toList.length

/-- All offsets from the first to the last, both included. -/
def between (first last : Int) : OffsetSet where
  toList := (List.range (last + 1 - first).toNat).map fun index : Nat => first + index
  ascending := by
    rw [List.pairwise_map]
    exact List.pairwise_lt_range.imp (by omega)

@[simp] theorem mem_between {first last offset : Int} :
    offset ∈ between first last ↔ first ≤ offset ∧ offset ≤ last := by
  change offset ∈ List.map _ _ ↔ _
  simp only [List.mem_map, List.mem_range]
  constructor
  · rintro ⟨index, bounded, rfl⟩
    omega
  · intro bounds
    exact ⟨(offset - first).toNat, by omega⟩

@[simp] theorem size_between (first last : Int) :
    (between first last).size = (last + 1 - first).toNat := by
  simp [size, between]

/-- Put an offset in its place in an ascending list. -/
def place (offset : Int) : List Int → List Int
  | [] => [offset]
  | head :: rest =>
      if offset < head then offset :: head :: rest
      else if offset = head then head :: rest
      else head :: place offset rest

@[simp] theorem mem_place {offset other : Int} {list : List Int} :
    other ∈ place offset list ↔ other = offset ∨ other ∈ list := by
  induction list with
  | nil => simp [place]
  | cons head rest inductionHypothesis =>
      unfold place
      split
      · simp
      · split
        · simp_all
        · simp only [List.mem_cons, inductionHypothesis]
          exact or_left_comm

theorem pairwise_place
    {offset : Int}
    {list : List Int}
    (ascending : list.Pairwise (· < ·)) :
    (place offset list).Pairwise (· < ·) := by
  induction list with
  | nil => simp [place]
  | cons head rest inductionHypothesis =>
      obtain ⟨headLeast, restAscending⟩ := List.pairwise_cons.mp ascending
      unfold place
      split
      case isTrue less =>
        refine List.pairwise_cons.mpr ⟨?_, ascending⟩
        intro other member
        rcases List.mem_cons.mp member with rfl | member
        · exact less
        · exact Int.lt_trans less (headLeast other member)
      case isFalse notLess =>
        split
        · exact ascending
        case isFalse different =>
          refine List.pairwise_cons.mpr ⟨?_, inductionHypothesis restAscending⟩
          intro other member
          rcases mem_place.mp member with rfl | member
          · omega
          · exact headLeast other member

/-- Add one offset. -/
def insert (offset : Int) (offsets : OffsetSet) : OffsetSet where
  toList := place offset offsets.toList
  ascending := pairwise_place offsets.ascending

@[simp] theorem mem_insert {offset other : Int} {offsets : OffsetSet} :
    other ∈ offsets.insert offset ↔ other = offset ∨ other ∈ offsets :=
  mem_place

/-- The set of the offsets of any list. -/
def ofList (offsets : List Int) : OffsetSet :=
  offsets.foldr insert ∅

@[simp] theorem mem_ofList {offset : Int} {offsets : List Int} :
    offset ∈ ofList offsets ↔ offset ∈ offsets := by
  induction offsets with
  | nil => simp [ofList]
  | cons head rest inductionHypothesis =>
      rw [List.mem_cons, ← inductionHypothesis]
      exact mem_insert

/-- The members of either of two sets. -/
def union (left right : OffsetSet) : OffsetSet :=
  left.toList.foldr insert right

instance : Union OffsetSet := ⟨union⟩

@[simp] theorem mem_union {offset : Int} {left right : OffsetSet} :
    offset ∈ left ∪ right ↔ offset ∈ left ∨ offset ∈ right := by
  change offset ∈ left.toList.foldr insert right ↔ offset ∈ left.toList ∨ _
  induction left.toList with
  | nil => simp
  | cons head rest inductionHypothesis =>
      rw [List.foldr_cons, mem_insert, inductionHypothesis, List.mem_cons,
        or_assoc]

/-- The least set without gaps that contains the given one. -/
def closure (offsets : OffsetSet) : OffsetSet :=
  match offsets.toList.min?, offsets.toList.max? with
  | some least, some greatest => between least greatest
  | _, _ => ∅

@[simp] theorem closure_empty : closure ∅ = ∅ := rfl

/-- Every member of one set is a member of the other. -/
instance : HasSubset OffsetSet where
  Subset left right := ∀ offset ∈ left.toList, offset ∈ right

instance (left right : OffsetSet) : Decidable (left ⊆ right) :=
  inferInstanceAs (Decidable (∀ offset ∈ left.toList, offset ∈ right))

end OffsetSet

/-- The offsets of an interval, the stop included, if both its ends are in
one text. -/
def Interval.offsets (interval : Interval) : OffsetSet :=
  .between interval.start.offset interval.stop.offset

/-- The offsets of all intervals of a range. -/
def Range.offsets (range : Range) : OffsetSet :=
  range.intervals.foldr (fun interval rest => interval.offsets ∪ rest) ∅

@[simp] theorem Range.mem_offsets {offset : Int} {range : Range} :
    offset ∈ range.offsets ↔
      ∃ interval ∈ range.intervals, offset ∈ interval.offsets := by
  unfold Range.offsets
  induction range.intervals with
  | nil => simp
  | cons interval rest inductionHypothesis =>
      simp [inductionHypothesis]

end Locus
