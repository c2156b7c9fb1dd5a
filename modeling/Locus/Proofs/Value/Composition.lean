import Locus.Proofs.Value.Leaves

/-!
# Locations of composed values

Where all leaves have canonical locations, the location of a value is the
normal form of their intervals. Leaves are counted by what they cover, so
neither their order nor their grouping matters, nor which sequences are tuples
and which are lists.
-/

namespace Locus
namespace Value

open Sample (positionAt)

/-- Sequences, nested to any depth, over values with a canonical location. -/
inductive Composed : Value → Prop
  /-- A canonical range. -/
  | range {location : Range} (canonical : location.Canonical) :
      Composed (.range location)
  /-- A valid interval. -/
  | interval {location : Interval} (valid : location.Valid) :
      Composed (.interval location)
  /-- No value. -/
  | absent : Composed .absent
  /-- A node that can be asked for its location, sequences in the guise of a
  node included. -/
  | located
      {value : Value}
      {handle : Handle}
      {location : Range}
      (exposed : value.handle? = some handle)
      (placed : handle.range? = some location)
      (canonical : location.Canonical) :
      Composed value
  /-- A sequence of such values that has no location of its own. -/
  | sequence
      {value : Value}
      {shape : Shape}
      {items : List Value}
      (opened : value.opened? = some (shape, items))
      (composed : ∀ item ∈ items, Composed item) :
      Composed value

/-- Values that differ in the order, the grouping and the shapes of their
sequences only. -/
inductive Rearranged : Value → Value → Prop
  /-- Nothing differs. -/
  | refl (value : Value) : Rearranged value value
  /-- The other way round. -/
  | symm
      {value other : Value}
      (rearranged : Rearranged value other) :
      Rearranged other value
  /-- One difference after the other. -/
  | trans
      {value middle other : Value}
      (first : Rearranged value middle)
      (second : Rearranged middle other) :
      Rearranged value other
  /-- The items are the same in some order, and the shape is any. -/
  | permute
      {value other : Value}
      {shape otherShape : Shape}
      {items otherItems : List Value}
      (opened : value.opened? = some (shape, items))
      (otherOpened : other.opened? = some (otherShape, otherItems))
      (permuted : items.Perm otherItems) :
      Rearranged value other
  /-- Items that follow each other become a sequence of their own. -/
  | regroup
      {value inner other : Value}
      {shape innerShape otherShape : Shape}
      (front middle back : List Value)
      (opened : value.opened? = some (shape, front ++ middle ++ back))
      (innerOpened : inner.opened? = some (innerShape, middle))
      (otherOpened : other.opened? = some (otherShape, front ++ inner :: back)) :
      Rearranged value other
  /-- One of the items differs. -/
  | inside
      {value item otherItem other : Value}
      {shape otherShape : Shape}
      (front back : List Value)
      (opened : value.opened? = some (shape, front ++ item :: back))
      (rearranged : Rearranged item otherItem)
      (otherOpened :
        other.opened? = some (otherShape, front ++ otherItem :: back)) :
      Rearranged value other

/-- The intervals that a value contributes by itself: an interval is one, a range
and a node with a location have those of the range. -/
def ownIntervals : Value → List Interval
  | .interval own => [own]
  | .range location => location.intervals
  | .absent => []
  | value =>
      match value.handle?.bind Handle.range? with
      | some location => location.intervals
      | none => []

/-- The intervals of all leaves, in order. -/
def parts (value : Value) : List Interval :=
  value.leaves.flatMap ownIntervals

/-- The intervals of a value make up its location, if it has one by itself. -/
theorem ownIntervals_eq (value : Value) :
    value.ownIntervals =
      match value.ownRange? with
      | some location => location.intervals
      | none => [] := by
  cases value <;> rfl

theorem parts_eq (value : Value) :
    value.parts = value.leafRanges.flatMap Range.intervals := by
  unfold parts leafRanges
  induction value.leaves with
  | nil => rfl
  | cons leaf rest inductionHypothesis =>
      rw [List.flatMap_cons, inductionHypothesis, ownIntervals_eq,
        List.filterMap_cons]
      cases leaf.ownRange? <;> rfl

theorem Rearranged.leaves_perm
    {value other : Value}
    (rearranged : value.Rearranged other) :
    value.leaves.Perm other.leaves := by
  induction rearranged with
  | refl value => exact .refl value.leaves
  | symm _ inductionHypothesis => exact inductionHypothesis.symm
  | trans _ _ firstHypothesis secondHypothesis =>
      exact firstHypothesis.trans secondHypothesis
  | permute opened otherOpened permuted =>
      rw [leaves_of_opened opened, leaves_of_opened otherOpened]
      exact permuted.flatMap_right leaves
  | regroup front middle back opened innerOpened otherOpened =>
      rw [leaves_of_opened opened, leaves_of_opened otherOpened,
        List.flatMap_append, List.flatMap_append, List.flatMap_append,
        List.flatMap_cons, leaves_of_opened innerOpened, List.append_assoc]
  | inside front back opened _ otherOpened inductionHypothesis =>
      rw [leaves_of_opened opened, leaves_of_opened otherOpened,
        List.flatMap_append, List.flatMap_append, List.flatMap_cons,
        List.flatMap_cons]
      exact (inductionHypothesis.append_right _).append_left _

/-- The value has a canonical location of its own. -/
def Placed (value : Value) : Prop :=
  ∃ location, value.ownRange? = some location ∧ location.Canonical

theorem Composed.placed
    {value : Value}
    (composed : value.Composed) :
    ∀ leaf ∈ value.leaves, leaf.Placed := by
  induction composed with
  | range canonical =>
      rw [leaves_of_leaf rfl, List.forall_mem_singleton]
      exact ⟨_, rfl, canonical⟩
  | interval valid =>
      rw [leaves_of_leaf rfl, List.forall_mem_singleton]
      exact ⟨_, rfl, (Range.canonical_toRange _).mpr valid⟩
  | absent =>
      rw [leaves_of_leaf rfl, List.forall_mem_singleton]
      exact ⟨∅, rfl, Range.canonical_empty⟩
  | located exposed placed canonical =>
      rw [leaves_of_leaf (opened_of_handle exposed placed),
        List.forall_mem_singleton]
      exact ⟨_, ownRange_of_handle exposed placed, canonical⟩
  | sequence opened _ inductionHypothesis =>
      rw [leaves_of_opened opened, List.forall_mem_flatMap]
      exact inductionHypothesis

section Placed

variable {value other : Value}

theorem canonical_of_mem_leafRanges
    (placed : ∀ leaf ∈ value.leaves, leaf.Placed) :
    ∀ part ∈ value.leafRanges, part.Canonical := by
  intro part member
  obtain ⟨leaf, leafMember, own⟩ := List.mem_filterMap.mp member
  obtain ⟨location, otherOwn, canonical⟩ := placed leaf leafMember
  rw [own] at otherOwn
  cases otherOwn
  exact canonical

theorem valid_of_mem_parts
    (placed : ∀ leaf ∈ value.leaves, leaf.Placed) :
    ∀ interval ∈ value.parts, interval.Valid := by
  rw [parts_eq, List.forall_mem_flatMap]
  intro part member
  exact (canonical_of_mem_leafRanges placed part member).1

/-- A value whose leaves all have canonical locations has one too, and it is
the normal form of their intervals. -/
theorem locate_of_placed
    (placed : ∀ leaf ∈ value.leaves, leaf.Placed) :
    ∃ location, value.locate = .ok location ∧ location.Canonical ∧
      location ≈ .ofIntervals value.parts := by
  have located : ∀ leaf ∈ value.leaves, leaf.ownRange?.isSome := by
    intro leaf member
    obtain ⟨location, own, -⟩ := placed leaf member
    exact Option.isSome_of_eq_some own
  obtain ⟨location, found⟩ := exists_locate located
  have gathered := gathered_of_locate found
  have canonicalParts := canonical_of_mem_leafRanges placed
  refine ⟨location, found, gathered.canonical canonicalParts, ?_⟩
  rw [parts_eq]
  exact gathered.equiv_ofIntervals canonicalParts

theorem Rearranged.placed
    (rearranged : value.Rearranged other)
    (placed : ∀ leaf ∈ value.leaves, leaf.Placed) :
    ∀ leaf ∈ other.leaves, leaf.Placed := by
  intro leaf member
  exact placed leaf (rearranged.leaves_perm.mem_iff.mpr member)

theorem Rearranged.parts_perm (rearranged : value.Rearranged other) :
    value.parts.Perm other.parts :=
  rearranged.leaves_perm.flatMap_right ownIntervals

end Placed

/-- The location of a composed value is found and is canonical, and it is
equivalent to the normal form of the intervals of all leaves. No rearrangement
changes it. -/
theorem locate_composed {value : Value} (composed : value.Composed) :
    ∃ location, value.locate = .ok location ∧ location.Canonical ∧
      location ≈ .ofIntervals value.parts ∧
      ∀ other, value.Rearranged other →
        ∃ otherLocation, other.locate = .ok otherLocation ∧
          otherLocation ≈ location := by
  have placed := composed.placed
  obtain ⟨location, found, canonical, normal⟩ := locate_of_placed placed
  refine ⟨location, found, canonical, normal, ?_⟩
  intro other rearranged
  obtain ⟨otherLocation, otherFound, -, otherNormal⟩ :=
    locate_of_placed (rearranged.placed placed)
  refine ⟨otherLocation, otherFound, ?_⟩
  have sameNormal := Range.ofIntervals_equiv_of_perm
    (valid_of_mem_parts placed) rearranged.parts_perm
  exact Setoid.trans otherNormal
    (Setoid.symm (Setoid.trans normal sameNormal))

/-- A range of two files, a list, and a tuple that is a node. -/
def nested : Value :=
  .tuple
    [.range ⟨[⟨positionAt 3, positionAt 5⟩, ⟨.origin "g", .origin "g"⟩]⟩,
      .list [.interval ⟨positionAt 1, positionAt 3⟩, .absent],
      .sequence .tuple
        (some ⟨.builtin "Pair", .fixed ⟨[⟨positionAt 8, positionAt 9⟩]⟩⟩)
        [.truth true]]

/-- The same leaves in one list and in reverse. -/
def flattened : Value :=
  .list nested.leaves.reverse

theorem composed_nested : nested.Composed := by
  refine .sequence rfl ?_
  simp only [List.forall_mem_cons]
  refine ⟨.range (by decide), .sequence rfl ?_,
    .located rfl rfl (by decide), by simp⟩
  simp only [List.forall_mem_cons]
  exact ⟨.interval (by decide), .absent, by simp⟩

theorem rearranged_nested : nested.Rearranged flattened := by
  have grouped : (Value.list nested.leaves).Rearranged nested :=
    .regroup [_] [_, _] [_] rfl rfl rfl
  have reversed : (Value.list nested.leaves).Rearranged flattened :=
    .permute rfl rfl (List.reverse_perm nested.leaves).symm
  exact grouped.symm.trans reversed

/-- Where the nested value is located: the interval and the first part of the
range touch, and the other file comes last. -/
def nestedRange : Range :=
  ⟨[⟨positionAt 1, positionAt 5⟩, ⟨positionAt 8, positionAt 9⟩,
    ⟨.origin "g", .origin "g"⟩]⟩

theorem locate_nested : nested.locate = .ok nestedRange := by
  have behind : Interval.toRange ⟨positionAt 1, positionAt 3⟩ ∪
      ⟨[⟨positionAt 8, positionAt 9⟩]⟩ =
        ⟨[⟨positionAt 1, positionAt 3⟩, ⟨positionAt 8, positionAt 9⟩]⟩ := by
    apply congrArg Range.mk
    rw [Range.intervals_toRange, Range.sweep, if_pos (by decide),
      Range.sweep_nil_left]
  have whole : (⟨[⟨positionAt 3, positionAt 5⟩,
        ⟨.origin "g", .origin "g"⟩]⟩ : Range) ∪
      ⟨[⟨positionAt 1, positionAt 3⟩, ⟨positionAt 8, positionAt 9⟩]⟩ =
        nestedRange := by
    apply congrArg Range.mk
    rw [Range.sweep, if_neg (by decide), if_neg (by decide),
      if_neg (by decide), Range.sweep, if_pos (by decide), Range.sweep,
      if_neg (by decide), if_pos (by decide), Range.sweep_nil_right]
    rfl
  have node : (Value.sequence .tuple
        (some ⟨.builtin "Pair", .fixed ⟨[⟨positionAt 8, positionAt 9⟩]⟩⟩)
        [.truth true]).locate = .ok ⟨[⟨positionAt 8, positionAt 9⟩]⟩ :=
    locate_of_handle rfl rfl
  simp only [nested, locate_tuple, locateForward, locate_range, locate_list,
    locateBackward, locate_interval, locate_absent, node]
  change Except.ok (_ ∪ ((_ ∪ (∅ ∪ ∅)) ∪ (_ ∪ ∅))) = Except.ok nestedRange
  rw [Range.union_empty, Range.union_empty, Range.union_empty, behind, whole]

/-- The nested value is located where the normal form of the intervals of its
leaves is, and its flattened form likewise. -/
theorem locate_composed_of_nested :
    nested.Composed ∧ nested.Rearranged flattened ∧
    nested.locate = .ok nestedRange ∧
    nested.parts =
      [⟨positionAt 3, positionAt 5⟩, ⟨.origin "g", .origin "g"⟩,
        ⟨positionAt 1, positionAt 3⟩, ⟨positionAt 8, positionAt 9⟩] ∧
    nestedRange.Canonical ∧
    nestedRange ≈ .ofIntervals nested.parts ∧
    ∃ location, flattened.locate = .ok location ∧
      location ≈ nestedRange := by
  refine ⟨composed_nested, rearranged_nested, locate_nested, rfl, ?_⟩
  obtain ⟨location, found, canonical, normal, unaffected⟩ :=
    locate_composed composed_nested
  have named : location = nestedRange :=
    Except.ok.inj (found.symm.trans locate_nested)
  subst named
  exact ⟨canonical, normal, unaffected flattened rearranged_nested⟩

end Value
end Locus
