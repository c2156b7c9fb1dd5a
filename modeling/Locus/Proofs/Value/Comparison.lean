import Locus.Proofs.Range.Transport
import Locus.Proofs.Sorting.Adaptive
import Locus.Value.Selection

/-!
# Locations are totally ordered up to line and column

Positions, intervals and ranges compare like the tuples of their compared
fields: a position like its file and offset, an interval like its ends, a range
like its intervals. So every question about two of them has an answer that
depends on a single ordering, and this ordering is transitive and ties exactly
those that agree without lines and columns. Sorting finds the ascending
arrangement, and all orders of the same locations have the same one up to ties.
-/

namespace Locus

namespace Value

/-- Both values are related and equal as the given ordering says, whichever of
them is asked. -/
structure Compared (first second : Value) (ordering : Ordering) : Prop where
  related : ∀ relation turned,
    first.relateAsked relation turned second = .ok (relation.holds ordering)
  same_eq : first.same second = decide (ordering = .eq)
  defined : first.areUndefined second = false

/-- The items are related and equal as the given ordering says. -/
structure ComparedItems (firsts seconds : List Value) (ordering : Ordering) :
    Prop where
  related : ∀ relation turned,
    relateItems relation turned firsts seconds = .ok (relation.holds ordering)
  same_eq : sameItems firsts seconds = decide (ordering = .eq)

section Compared

variable {first second : Value} {firsts seconds : List Value}
variable {ordering restOrdering : Ordering}

theorem compared_text (first second : String) :
    Compared (.text first) (.text second) (compare first second) where
  related _ _ := rfl
  same_eq := by
    simp only [same, Std.LawfulEqOrd.compare_eq_iff_eq]
  defined := rfl

/-- Whole numbers are ordered like the rational numbers they are. -/
theorem compared_number (first second : Int) :
    Compared (.number first) (.number second) (compare first second) := by
  have measured : compare (Quantity.rational first) (Quantity.rational second) =
      compare first second := by
    rw [Quantity.compare_rational]
    change _ = compareOfLessAndEq first second
    simp only [compareOfLessAndEq, Rat.intCast_lt_intCast, Rat.intCast_inj]
  refine ⟨fun relation turned => ?_, ?_, rfl⟩
  · rw [← measured]
    rfl
  · rw [← measured]
    simp [same, measure?, Quantity.order?]

theorem compared_position (first second : Position) :
    Compared (.position first) (.position second) (compare first second) where
  related _ _ := rfl
  same_eq := rfl
  defined := rfl

theorem compared_interval (first second : Interval) :
    Compared (.interval first) (.interval second) (compare first second) where
  related _ _ := rfl
  same_eq := rfl
  defined := rfl

theorem compared_range (first second : Range) :
    Compared (.range first) (.range second) (compare first second) where
  related _ _ := rfl
  same_eq := rfl
  defined := rfl

theorem comparedItems_nil : ComparedItems [] [] .eq where
  related _ _ := rfl
  same_eq := rfl

/-- The first items that differ decide. -/
theorem ComparedItems.cons
    (head : Compared first second ordering)
    (tail : ComparedItems firsts seconds restOrdering) :
    ComparedItems (first :: firsts) (second :: seconds)
      (ordering.then restOrdering) where
  related relation turned := by
    have asked : relateItems relation turned (first :: firsts)
        (second :: seconds) =
        if first.alike second then
          relateItems relation turned firsts seconds
        else
          relateAsked relation turned first second := rfl
    rw [asked, alike, head.defined, head.same_eq, head.related, tail.related]
    cases ordering <;> rfl
  same_eq := by
    have asked : sameItems (first :: firsts) (second :: seconds) =
        ((first.areUndefined second || first.same second) &&
          sameItems firsts seconds) := rfl
    rw [asked, head.defined, head.same_eq, tail.same_eq]
    cases ordering <;> rfl

/-- Lists of wrapped values are ordered like the lists of the values. -/
theorem comparedItems_map
    {α : Type}
    [Ord α]
    {wrap : α → Value}
    (compared : ∀ first second,
      Compared (wrap first) (wrap second) (compare first second))
    (firsts seconds : List α) :
    ComparedItems (firsts.map wrap) (seconds.map wrap)
      (compare firsts seconds) := by
  induction firsts generalizing seconds with
  | nil =>
      cases seconds with
      | nil => exact comparedItems_nil
      | cons second secondRest => exact ⟨fun _ _ => rfl, rfl⟩
  | cons first firstRest inductionHypothesis =>
      cases seconds with
      | nil => exact ⟨fun _ _ => rfl, rfl⟩
      | cons second secondRest =>
          rw [List.compare_cons_cons]
          exact (inductionHypothesis secondRest).cons (compared first second)

theorem ComparedItems.tuple (items : ComparedItems firsts seconds ordering) :
    Compared (.tuple firsts) (.tuple seconds) ordering where
  related relation turned := items.related relation turned
  same_eq := by
    simp [same, items.same_eq]
  defined := rfl

end Compared

end Value

/-- The tuple of the compared fields: line and column are left out. -/
def Position.facets (position : Position) : Value :=
  .tuple [.text position.file, .number position.offset]

/-- The tuple of the compared fields. -/
def Interval.facets (interval : Interval) : Value :=
  .tuple [.position interval.start, .position interval.stop]

/-- The tuple of the only field, which is a tuple itself. -/
def Range.facets (range : Range) : Value :=
  .tuple [.tuple (range.intervals.map .interval)]

namespace Value

section Facets

variable {first second third fourth : Value} {ordering restOrdering : Ordering}

theorem Compared.single (only : Compared first second ordering) :
    Compared (.tuple [first]) (.tuple [second]) ordering := by
  rw [← Ordering.then_eq (o := ordering)]
  exact (comparedItems_nil.cons only).tuple

theorem Compared.pair
    (left : Compared first second ordering)
    (right : Compared third fourth restOrdering) :
    Compared (.tuple [first, third]) (.tuple [second, fourth])
      (ordering.then restOrdering) := by
  rw [← Ordering.then_eq (o := restOrdering)]
  exact ((comparedItems_nil.cons right).cons left).tuple

theorem compared_facets_position (first second : Position) :
    Compared first.facets second.facets (compare first second) :=
  (compared_text first.file second.file).pair
    (compared_number first.offset second.offset)

theorem compared_facets_interval (first second : Interval) :
    Compared first.facets second.facets (compare first second) :=
  (compared_position first.start second.start).pair
    (compared_position first.stop second.stop)

theorem compared_facets_range (first second : Range) :
    Compared first.facets second.facets (compare first second) :=
  (comparedItems_map compared_interval first.intervals
    second.intervals).tuple.single

end Facets

section Order

variable {α : Type} (wrap : α → Value)

/-- The relation holds between what stands for the values. -/
def Holds (relation : Relation) (first second : α) : Prop :=
  (wrap first).relate relation (wrap second) = .ok true

/-- What stands for the values is equal. -/
def Equal (first second : α) : Prop :=
  (wrap first).same (wrap second)

/-- The comparison of what stands for some values is total and transitive. The
values count as one when they are the same after erasing, and comparing them is
comparing the tuples of their compared fields. -/
structure TotalUpTo [Ord α] (erase : α → α) (facets : α → Value) : Prop where
  /-- Every question has an answer. -/
  answered : ∀ relation first second,
    ∃ answer, (wrap first).relate relation (wrap second) = .ok answer
  /-- Of less, equal and greater exactly one holds. -/
  one_holds : ∀ first second,
    (Holds wrap .less first second ∧ ¬Equal wrap first second ∧
      ¬Holds wrap .greater first second) ∨
    (¬Holds wrap .less first second ∧ Equal wrap first second ∧
      ¬Holds wrap .greater first second) ∨
    (¬Holds wrap .less first second ∧ ¬Equal wrap first second ∧
      Holds wrap .greater first second)
  less_trans : ∀ first second third, Holds wrap .less first second →
    Holds wrap .less second third → Holds wrap .less first third
  atMost_iff : ∀ first second, Holds wrap .atMost first second ↔
    Holds wrap .less first second ∨ Equal wrap first second
  greater_iff : ∀ first second,
    Holds wrap .greater first second ↔ Holds wrap .less second first
  atLeast_iff : ∀ first second,
    Holds wrap .atLeast first second ↔ Holds wrap .atMost second first
  equal_iff : ∀ first second,
    Equal wrap first second ↔ erase first = erase second
  /-- Equal values may stand for each other on both sides. -/
  related_congr : ∀ first other second another, Equal wrap first other →
    Equal wrap second another → ∀ relation,
      (wrap first).relate relation (wrap second) =
        (wrap other).relate relation (wrap another)
  same_congr : ∀ first other second another, Equal wrap first other →
    Equal wrap second another →
      (wrap first).same (wrap second) = (wrap other).same (wrap another)
  related_facets : ∀ relation first second,
    (wrap first).relate relation (wrap second) =
      (facets first).relate relation (facets second)
  same_facets : ∀ first second,
    (wrap first).same (wrap second) = (facets first).same (facets second)
  /-- Sorting has a result, which is in ascending order. -/
  sorted : ∀ values, sortUp (values.map wrap) = .ok ((ascending values).map wrap)
  sorted_rises : ∀ values, (ascending values).Pairwise (Holds wrap .atMost)
  /-- The order in which the values are given does not matter. -/
  sorted_equal : ∀ values others, values.Perm others →
    List.Forall₂ (Equal wrap) (ascending values) (ascending others)

variable [Ord α] {wrap}
variable (compared : ∀ first second,
  Compared (wrap first) (wrap second) (compare first second))

include compared

theorem relate_eq (relation : Relation) (first second : α) :
    (wrap first).relate relation (wrap second) =
      .ok (relation.holds (compare first second)) :=
  (compared first second).related relation false

theorem holds_iff {relation : Relation} {first second : α} :
    Holds wrap relation first second ↔
      relation.holds (compare first second) := by
  rw [Holds, relate_eq compared, Except.ok.injEq]

theorem equal_iff_tied {first second : α} :
    Equal wrap first second ↔ Tied first second := by
  rw [Equal, (compared first second).same_eq, decide_eq_true_iff]
  rfl

/-- A sort is told the order. -/
theorem tells_precedes : Sorting.Tells compare wrap precedes := by
  intro first second
  rw [precedes, relate_eq compared]
  rfl

variable [Std.TransOrd α]

/-- Tied values may stand for each other on both sides. -/
theorem compare_congr
    {first other second another : α}
    (left : Equal wrap first other)
    (right : Equal wrap second another) :
    compare first second = compare other another := by
  rw [equal_iff_tied compared] at left right
  rw [Std.TransCmp.congr_left left, Std.TransCmp.congr_right right]

/-- A comparison by a single ordering is total. -/
theorem TotalUpTo.of_compared
    {erase : α → α}
    {facets : α → Value}
    (comparedFacets : ∀ first second,
      Compared (facets first) (facets second) (compare first second))
    (erased : ∀ first second,
      erase first = erase second ↔ Tied first second) :
    TotalUpTo wrap erase facets where
  answered relation first second := ⟨_, relate_eq compared relation first second⟩
  one_holds first second := by
    simp only [holds_iff compared, equal_iff_tied compared, Tied]
    cases compare first second <;> decide
  less_trans first second third := by
    simp only [holds_iff compared, Relation.holds, Ordering.isLT_iff_eq_lt]
    exact Std.TransCmp.lt_trans
  atMost_iff first second := by
    simp only [holds_iff compared, equal_iff_tied compared, Tied]
    cases compare first second <;> decide
  greater_iff first second := by
    simp only [holds_iff compared, Std.OrientedCmp.eq_swap (a := second)]
    cases compare first second <;> decide
  atLeast_iff first second := by
    simp only [holds_iff compared, Std.OrientedCmp.eq_swap (a := second)]
    cases compare first second <;> decide
  equal_iff first second :=
    (equal_iff_tied compared).trans (erased first second).symm
  related_congr _ _ _ _ left right relation := by
    rw [relate_eq compared, relate_eq compared, compare_congr compared left right]
  same_congr first other second another left right := by
    rw [(compared first second).same_eq, (compared other another).same_eq,
      compare_congr compared left right]
  related_facets relation first second := by
    rw [relate_eq compared, relate_eq comparedFacets]
  same_facets first second := by
    rw [(compared first second).same_eq, (comparedFacets first second).same_eq]
  sorted := Sorting.sort_eq_ascending (tells_precedes compared)
  sorted_rises values :=
    (pairwise_ascending values).imp (holds_iff compared).mpr
  sorted_equal _ _ permuted :=
    (Sorting.forall₂_tied_ascending permuted).imp
      fun _ _ => (equal_iff_tied compared).mpr

end Order

/-- Positions, intervals and ranges are totally ordered up to line and column. -/
theorem total_up_to_line_and_column :
    TotalUpTo .position Position.bare Position.facets ∧
      TotalUpTo .interval (Interval.map Position.bare) Interval.facets ∧
        TotalUpTo .range (Range.map Position.bare) Range.facets :=
  ⟨.of_compared compared_position compared_facets_position
      fun _ _ => Position.bare_eq_iff,
    .of_compared compared_interval compared_facets_interval
      fun _ _ => Interval.map_bare_eq_iff,
    .of_compared compared_range compared_facets_range
      fun _ _ => Range.map_bare_eq_iff⟩

/-- A range of the given first line, with or without a second interval. -/
def linedRange (line : Int) (rest : List Interval) : Range :=
  ⟨⟨⟨⟨"a", 4⟩, line, 1⟩, ⟨⟨"a", 6⟩, line, 3⟩⟩ :: rest⟩

/-- Two ranges that differ in the line are equal without being identical, and
both come before a continuation in falling intervals. Sorted in either order, the
three come out the same up to ties. -/
theorem total_up_to_line_and_column_of_continuation :
    let shown := linedRange 2 []
    let other := linedRange 7 []
    let continued := linedRange 1 [⟨⟨⟨"a", 3⟩, 1, 1⟩, ⟨⟨"a", 2⟩, 1, 2⟩⟩]
    shown ≠ other ∧ Equal .range shown other ∧
      Holds .range .less other continued ∧
      Holds .range .less shown continued ∧
      sortUp ([shown, other, continued].map .range) =
        .ok ([shown, other, continued].map .range) ∧
      List.Forall₂ (Equal .range) (ascending [continued, other, shown])
        [shown, other, continued] := by
  intro shown other continued
  obtain ⟨-, -, total⟩ := total_up_to_line_and_column
  have equal : Equal .range shown other := (total.equal_iff _ _).mpr rfl
  have itself : Equal .range continued continued :=
    (total.equal_iff _ _).mpr rfl
  have less : Holds .range .less other continued := by
    rw [Holds, total.related_facets]
    rfl
  have inOrder : ascending [shown, other, continued] =
      [shown, other, continued] := ascending_of_pairwise (by decide)
  refine ⟨by decide, equal, less, ?_, ?_, ?_⟩
  · rw [Holds, total.related_congr _ _ _ _ equal itself]
    exact less
  · rw [total.sorted, inOrder]
  · have sorted := total.sorted_equal _ _
      (List.reverse_perm [continued, other, shown]).symm
    rwa [List.reverse_cons, List.reverse_cons, List.reverse_singleton,
      List.singleton_append, List.cons_append, List.singleton_append, inOrder]
      at sorted

end Value

end Locus
