import Locus.Proofs.Value.Failure
import Mathlib.Data.List.Forall2

/-!
# Tuples and lists compose alike

The items of a tuple are located from the front and those of a list from the
back, but both unite their ranges to the right: the last one joins the empty
range, and each one in front joins what lies behind it. So the two have the same
location down to lines and columns, whether or not the ranges are canonical, and
so has the tower of pairs that holds the same items. They differ only in the item
that is to blame when several have no location.
-/

namespace Locus
namespace Value

/-- The union of several ranges, built up from the last one. -/
def uniteAll (ranges : List Range) : Range :=
  ranges.foldr (· ∪ ·) ∅

/-- The items are located at the given ranges, one by one. -/
def LocatedAt (items : List Value) (ranges : List Range) : Prop :=
  List.Forall₂ (fun item range => item.locate = .ok range) items ranges

/-- The items in a tower of pairs. Each pair holds an item and the tower of the
items behind it, and the last item stands alone. -/
def tower : List Value → Value
  | [] => .tuple []
  | [item] => item
  | item :: next :: rest => .tuple [item, tower (next :: rest)]

example (first second third : Value) :
    tower [first, second, third] = .tuple [first, .tuple [second, third]] :=
  rfl

section Items

variable {shape : Shape} {items : List Value}

/-- A sequence of any shape is located at the union of the ranges of its
items, grouped to the right. -/
theorem locateItems_eq_ok_iff {location : Range} :
    locateItems shape items = .ok location ↔
      ∃ ranges, LocatedAt items ranges ∧ uniteAll ranges = location := by
  induction items generalizing location with
  | nil => simp [LocatedAt, uniteAll]
  | cons item rest inductionHypothesis =>
      rw [locateItems_cons_eq_ok_iff]
      constructor
      · rintro ⟨front, back, locatedFront, locatedBack, rfl⟩
        obtain ⟨ranges, located, rfl⟩ := inductionHypothesis.mp locatedBack
        exact ⟨front :: ranges, .cons locatedFront located, rfl⟩
      · rintro ⟨ranges, located, rfl⟩
        cases located with
        | @cons _ front _ behind locatedFront located =>
            exact ⟨front, uniteAll behind, locatedFront,
              inductionHypothesis.mpr ⟨behind, located, rfl⟩, rfl⟩

/-- A tuple blames the first of its items that cannot be located. -/
theorem failure?_locateForward (items : List Value) :
    failure? (locateForward items) =
      items.findSome? fun item => failure? item.locate := by
  induction items with
  | nil => rfl
  | cons item rest inductionHypothesis =>
      have first := failure?_bind item.locate (locateForward rest) (· ∪ ·)
      rw [inductionHypothesis] at first
      rw [List.findSome?_cons]
      refine first.trans ?_
      cases failure? item.locate <;> rfl

/-- A list blames the last of its items that cannot be located. -/
theorem failure?_locateBackward (items : List Value) :
    failure? (locateBackward items) =
      items.reverse.findSome? fun item => failure? item.locate := by
  induction items with
  | nil => rfl
  | cons item rest inductionHypothesis =>
      rw [List.reverse_cons, List.findSome?_append, ← inductionHypothesis,
        List.findSome?_singleton]
      exact failure?_bind (locateBackward rest) item.locate
        fun back front => front ∪ back

/-- The error of a sequence is the error of one of its items. -/
theorem exists_mem_of_locateItems_eq_error
    {error : LocationError}
    (failed : locateItems shape items = .error error) :
    ∃ item ∈ items, item.locate = .error error := by
  rw [← failure?_eq_some_iff] at failed
  cases shape with
  | tuple =>
      rw [locateItems, failure?_locateForward] at failed
      obtain ⟨item, member, own⟩ := List.exists_of_findSome?_eq_some failed
      exact ⟨item, member, failure?_eq_some_iff.mp own⟩
  | _ =>
      rw [locateItems, failure?_locateBackward] at failed
      obtain ⟨item, member, own⟩ := List.exists_of_findSome?_eq_some failed
      exact ⟨item, List.mem_reverse.mp member, failure?_eq_some_iff.mp own⟩

/-- Where not all items are located, one of them is to blame for the error of
the sequence, and the error names the class of a value without a location. -/
theorem exists_blamed_of_not_locatedAt
    (unlocated : ¬∃ ranges, LocatedAt items ranges)
    (shape : Shape) :
    ∃ item ∈ items, ∃ kind, item.locate = .error (.rangeless kind) ∧
      locateItems shape items = .error (.rangeless kind) := by
  cases outcome : locateItems shape items with
  | ok location =>
      obtain ⟨ranges, located, -⟩ := locateItems_eq_ok_iff.mp outcome
      exact absurd ⟨ranges, located⟩ unlocated
  | error error =>
      obtain ⟨item, member, own⟩ := exists_mem_of_locateItems_eq_error outcome
      obtain ⟨leaf, -, rfl⟩ := locate_eq_error_iff.mp own
      exact ⟨item, member, leaf.kind, own, rfl⟩

end Items

/-- A tuple is located like the tower of its items. -/
theorem locate_tower (items : List Value) :
    (tower items).locate = (Value.tuple items).locate := by
  obtain ⟨-, single, pair, longer⟩ := locate_tuple_by_length
  fun_induction tower items with
  | case1 => rfl
  | case2 item => exact (single item).symm
  | case3 item next rest inductionHypothesis =>
      rw [pair]
      cases rest with
      | nil => exact (pair item next).symm
      | cons third rest =>
          rw [longer, locateBoth, locateBoth, inductionHypothesis]

/-- Tuples, lists and towers of the same items are located alike. Either all
items are located, and the three have the same location, the union of the ranges
of the items grouped to the right; or some item has no location, and none of the
three has one. -/
theorem sequences_locate_alike (items : List Value) :
    (∃ ranges, LocatedAt items ranges ∧
      (Value.tuple items).locate = .ok (uniteAll ranges) ∧
      (Value.list items).locate = .ok (uniteAll ranges) ∧
      (tower items).locate = .ok (uniteAll ranges)) ∨
    (∃ early ∈ items, ∃ late ∈ items, ∃ earlyKind lateKind,
      early.locate = .error (.rangeless earlyKind) ∧
      late.locate = .error (.rangeless lateKind) ∧
      (Value.tuple items).locate = .error (.rangeless earlyKind) ∧
      (Value.list items).locate = .error (.rangeless lateKind) ∧
      (tower items).locate = .error (.rangeless earlyKind)) := by
  have ofShape (shape : Shape) :
      (Value.sequence shape none items).locate = locateItems shape items :=
    locate_of_opened rfl
  rw [locate_tower, ofShape, ofShape]
  by_cases found : ∃ ranges, LocatedAt items ranges
  case pos =>
    obtain ⟨ranges, located⟩ := found
    have united (shape : Shape) :
        locateItems shape items = .ok (uniteAll ranges) :=
      locateItems_eq_ok_iff.mpr ⟨ranges, located, rfl⟩
    exact Or.inl ⟨ranges, located, united _, united _, united _⟩
  case neg =>
    obtain ⟨early, earlyMember, earlyKind, earlyOwn, forward⟩ :=
      exists_blamed_of_not_locatedAt found .tuple
    obtain ⟨late, lateMember, lateKind, lateOwn, backward⟩ :=
      exists_blamed_of_not_locatedAt found .list
    exact Or.inr ⟨early, earlyMember, late, lateMember, earlyKind, lateKind,
      earlyOwn, lateOwn, forward, backward, forward⟩

end Value
end Locus
