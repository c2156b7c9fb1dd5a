import Locus.Proofs.Range.Transport
import Locus.Proofs.Value.Leaves

/-!
# Values moved along an order

A function on positions moves a value by all the positions in it and leaves
everything else as it is, in particular how sequences are nested and which
nodes have a location. Locating a moved value is therefore moving its location,
and it fails where locating the value itself does, with the same error.
-/

namespace Locus

/-- The handle with its location moved. -/
def Handle.map (move : Position → Position) : Handle → Handle
  | .fixed range => .fixed (range.map move)
  | .movable range => .movable (range.map move)
  | .hidden => .hidden

/-- The guise with its location moved. -/
def Guise.map (move : Position → Position) (guise : Guise) : Guise where
  kind := guise.kind
  handle := guise.handle.map move

/-- The fault with its interval moved. -/
def Fault.map (move : Position → Position) (fault : Fault) : Fault where
  message := fault.message
  interval := fault.interval.map (Interval.map move)

@[simp] theorem Handle.range?_map
    (move : Position → Position)
    (handle : Handle) :
    (handle.map move).range? = handle.range?.map (Range.map move) := by
  cases handle <;> rfl

namespace Value

open Sample (positionAt)

mutual

/-- The value with all its positions moved. -/
def map (move : Position → Position) : Value → Value
  | .position value => .position (move value)
  | .interval value => .interval (value.map move)
  | .range value => .range (value.map move)
  | .fault value => .fault (value.map move)
  | .sequence shape guise items =>
      .sequence shape (guise.map (Guise.map move)) (mapAll move items)
  | .dictionary entries => .dictionary (mapEntries move entries)
  | .node kind handle parts => .node kind (handle.map move) (mapAll move parts)
  | .entity kind handle mark => .entity kind (handle.map move) mark
  | value => value

/-- The values with all their positions moved. -/
def mapAll (move : Position → Position) : List Value → List Value
  | [] => []
  | value :: rest => value.map move :: mapAll move rest

/-- The values of a dictionary with all their positions moved. -/
def mapEntries (move : Position → Position) :
    List (String × Value) → List (String × Value)
  | [] => []
  | (key, value) :: rest => (key, value.map move) :: mapEntries move rest

end

section Moved

variable {move : Position → Position}

theorem mapAll_eq_map (values : List Value) :
    mapAll move values = values.map (map move) := by
  induction values with
  | nil => rfl
  | cons value rest inductionHypothesis =>
      rw [mapAll, inductionHypothesis, List.map_cons]

theorem kind_map (value : Value) : (value.map move).kind = value.kind := by
  cases value with
  | sequence shape guise items => cases guise <;> rfl
  | _ => rfl

theorem guiseRange_map (guise : Option Guise) :
    ((guise.map (Guise.map move)).bind fun guise => guise.handle.range?) =
      (guise.bind fun guise => guise.handle.range?).map (Range.map move) := by
  cases guise with
  | none => rfl
  | some guise => exact Handle.range?_map move guise.handle

theorem ownRange?_map (value : Value) :
    (value.map move).ownRange? = value.ownRange?.map (Range.map move) := by
  cases value with
  | sequence shape guise items =>
      cases guise with
      | none => rfl
      | some guise => exact Handle.range?_map move guise.handle
  | node kind handle parts => exact Handle.range?_map move handle
  | entity kind handle mark => exact Handle.range?_map move handle
  | _ => rfl

/-- Moving a value changes neither whether it is opened nor into what. -/
theorem opened?_map (value : Value) :
    (value.map move).opened? =
      value.opened?.map fun opened =>
        (opened.1, opened.2.map (map move)) := by
  cases value with
  | sequence shape guise items =>
      rw [map, opened?, guiseRange_map, opened?, mapAll_eq_map]
      cases guise.bind fun guise => guise.handle.range? <;> rfl
  | _ => rfl

variable (keeps : Position.KeepsOrder move)

include keeps

theorem locateItems_map
    {shape : Shape}
    {items : List Value}
    (moved : ∀ item ∈ items,
      (item.map move).locate = item.locate.map (Range.map move)) :
    locateItems shape (items.map (map move)) =
      (locateItems shape items).map (Range.map move) := by
  induction items with
  | nil => cases shape <;> rfl
  | cons item rest inductionHypothesis =>
      rw [List.forall_mem_cons] at moved
      have movedItem := moved.1
      have movedRest := inductionHypothesis moved.2
      rw [List.map_cons]
      cases shape with
      | tuple =>
          simp only [locateItems, locateForward] at movedRest ⊢
          rw [movedItem, movedRest]
          cases item.locate with
          | error error => rfl
          | ok front =>
              cases locateForward rest with
              | error error => rfl
              | ok back =>
                  exact congrArg Except.ok (Range.union_map keeps front back)
      | _ =>
          simp only [locateItems, locateBackward] at movedRest ⊢
          rw [movedItem, movedRest]
          cases locateBackward rest with
          | error error => rfl
          | ok back =>
              cases item.locate with
              | error error => rfl
              | ok front =>
                  exact congrArg Except.ok (Range.union_map keeps front back)

/-- Locating a moved value is moving its location, or failing alike. -/
theorem locate_map (value : Value) :
    (value.map move).locate = value.locate.map (Range.map move) := by
  induction value using openingInduction with
  | leaf value leaf =>
      have movedLeaf : (value.map move).opened? = none := by
        rw [opened?_map, leaf, Option.map_none]
      rw [locate_of_leaf leaf, locate_of_leaf movedLeaf, ownRange?_map,
        kind_map]
      cases value.ownRange? <;> rfl
  | sequence value shape items opened inductionHypothesis =>
      have movedOpened : (value.map move).opened? =
          some (shape, items.map (map move)) := by
        rw [opened?_map, opened, Option.map_some]
      rw [locate_of_opened opened, locate_of_opened movedOpened]
      exact locateItems_map keeps inductionHypothesis

end Moved

/-- Values that differ in lines and columns only are located at the same
points, or fail alike. -/
theorem locate_congr
    {first second : Value}
    (same : first.map Position.bare = second.map Position.bare) :
    (∃ error, first.locate = .error error ∧ second.locate = .error error) ∨
      ∃ location other, first.locate = .ok location ∧
        second.locate = .ok other ∧ location ≈ other := by
  have located : first.locate.map (Range.map Position.bare) =
      second.locate.map (Range.map Position.bare) := by
    rw [← locate_map Position.keepsOrder_bare, same,
      locate_map Position.keepsOrder_bare]
  cases firstLocated : first.locate <;> cases secondLocated : second.locate <;>
    simp only [firstLocated, secondLocated, Except.map, Except.error.injEq,
      Except.ok.injEq, reduceCtorEq] at located
  · exact Or.inl ⟨_, rfl, congrArg Except.error located.symm⟩
  · exact Or.inr ⟨_, _, rfl, rfl, Range.map_bare_eq_iff.mp located⟩

/-- Operations on locations see nothing of positions but their order. They
commute with every function that keeps the order, whatever it does to lines,
columns and offsets, on any operands and any values, and what cannot be located
cannot be located afterwards either. In particular, inputs that differ in lines
and columns only have results that differ in lines and columns only. -/
theorem locations_depend_on_order_only :
    (∀ move : Position → Position, Position.KeepsOrder move →
      (∀ left right : Interval,
        (left.map move).hull (right.map move) = (left.hull right).map move) ∧
      (∀ left right : Range,
        left.map move ∪ right.map move = (left ∪ right).map move) ∧
      (∀ intervals : List Interval,
        Range.ofIntervals (intervals.map (Interval.map move)) =
          (Range.ofIntervals intervals).map move) ∧
      (∀ first second : Position,
        Range.between (move first) (move second) =
          (Range.between first second).map move) ∧
      (∀ range : Range,
        (range.map move).outer? = range.outer?.map (Interval.map move)) ∧
      (∀ value : Value,
        (value.map move).locate = value.locate.map (Range.map move))) ∧
    (∀ left right otherLeft otherRight : Interval,
      left ≈ otherLeft → right ≈ otherRight →
        left.hull right ≈ otherLeft.hull otherRight) ∧
    (∀ left right otherLeft otherRight : Range,
      left ≈ otherLeft → right ≈ otherRight →
        left ∪ right ≈ otherLeft ∪ otherRight) ∧
    (∀ intervals others : List Interval,
      List.Forall₂ (· ≈ ·) intervals others →
        Range.ofIntervals intervals ≈ Range.ofIntervals others) ∧
    (∀ first second otherFirst otherSecond : Position,
      first ≈ otherFirst → second ≈ otherSecond →
        Range.between first second ≈ Range.between otherFirst otherSecond) ∧
    (∀ range other : Range, range ≈ other →
      Option.Rel (· ≈ ·) range.outer? other.outer?) ∧
    (∀ first second : Value,
      first.map Position.bare = second.map Position.bare →
        (∃ error,
          first.locate = .error error ∧ second.locate = .error error) ∨
        ∃ location other, first.locate = .ok location ∧
          second.locate = .ok other ∧ location ≈ other) := by
  refine ⟨?_, fun _ _ _ _ => Interval.hull_congr,
    fun _ _ _ _ => Range.union_congr, fun _ _ => Range.ofIntervals_congr,
    fun _ _ _ _ => Range.between_congr, fun _ _ => Range.outer?_congr,
    fun _ _ => locate_congr⟩
  intro move keeps
  exact ⟨Interval.hull_map keeps, Range.union_map keeps,
    Range.ofIntervals_map keeps, Range.between_map keeps,
    Range.outer?_map move, locate_map keeps⟩

/-- The position in an old copy of the text, behind a header. Its line and
column are made up. -/
def shelved (position : Position) : Position where
  file := "old/" ++ position.file
  offset := position.offset + 40
  line := -position.offset
  column := position.line * position.column

theorem keepsOrder_shelved : Position.KeepsOrder shelved := by
  intro first second
  have names (name other : String) :
      "old/" ++ name < "old/" ++ other ↔ name < other := by
    rw [String.lt_iff, String.lt_iff, String.toList_append,
      String.toList_append]
    simp
  rw [Position.lt_iff, Position.lt_iff, Point.lt_iff, Point.lt_iff, shelved,
    shelved, names, String.append_right_inj, Int.add_lt_add_iff_right]

/-- Ten characters, an interval of another file, and one out of order. -/
def unsorted : Range :=
  ⟨[⟨positionAt 1, positionAt 11⟩, ⟨.origin "g", .origin "g"⟩,
    ⟨positionAt 2, positionAt 3⟩]⟩

/-- A reversed interval beside a node with an unsorted location. -/
def tumbled : Value :=
  .list [.interval ⟨positionAt 9, positionAt 4⟩,
    .tuple [ranged unsorted, .absent]]

theorem locate_tumbled : tumbled.locate = .ok unsorted := by
  have joined : Interval.toRange ⟨positionAt 9, positionAt 4⟩ ∪ unsorted =
      unsorted := by
    apply congrArg Range.mk
    rw [unsorted, Range.intervals_toRange, Range.sweep,
      if_neg (by decide), if_neg (by decide), if_pos (by decide),
      Range.sweep_nil_left]
    rfl
  simp only [tumbled, locate_list, locateBackward, locate_tuple,
    locateForward, locate_ranged, locate_absent, locate_interval]
  change Except.ok (_ ∪ ((unsorted ∪ (∅ ∪ ∅)) ∪ ∅)) = Except.ok unsorted
  rw [Range.union_empty, Range.union_empty, Range.union_empty, joined]

/-- The same beside two parts without a location. -/
def halfTumbled : Value :=
  .tuple [tumbled, .list [.truth true, .text "x"]]

/-- The tumbled value in the old copy is located in the old copy, and its half
located twin fails at the same part. -/
theorem locations_depend_on_order_only_of_tumbled :
    Position.KeepsOrder shelved ∧
    (tumbled.map shelved).locate = .ok (unsorted.map shelved) ∧
    (halfTumbled.map shelved).locate = .error (.rangeless (.builtin "str")) ∧
    Range.gapped ≈ Range.gappedOnOneLine ∧
    Range.gapped ∪ Range.gapped ≈
      Range.gappedOnOneLine ∪ Range.gappedOnOneLine := by
  obtain ⟨moves, -, unions, -⟩ := locations_depend_on_order_only
  obtain ⟨-, -, -, -, -, located⟩ := moves shelved keepsOrder_shelved
  have same : Range.gapped ≈ Range.gappedOnOneLine := by decide
  refine ⟨keepsOrder_shelved, ?_, ?_, same, unions _ _ _ _ same same⟩
  · rw [located, locate_tumbled]
    rfl
  · rw [located, halfTumbled]
    decide

end Value

end Locus
