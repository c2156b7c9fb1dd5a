import Locus.Proofs.Range.Gathered
import Locus.Value.Location

/-!
# The leaves of a value

Locating opens a sequence unless a guise gives it a location of its own. What
is reached by opening sequences and is not opened itself are the leaves. The
location of a value is gathered from the locations of its leaves, in their
order and grouped as they are nested, whichever end a sequence is searched
from.
-/

namespace Locus

namespace Value

/-- The shape and the items of a sequence that locating opens. -/
def opened? : Value → Option (Shape × List Value)
  | .sequence shape guise items =>
      match guise.bind fun guise => guise.handle.range? with
      | some _ => none
      | none => some (shape, items)
  | _ => none

/-- The location that a value which is not opened has by itself. -/
def ownRange? : Value → Option Range
  | .range location => some location
  | .interval location => some location.toRange
  | .absent => some ∅
  | value => value.handle?.bind Handle.range?

/-- The location of the items of a sequence of some shape. -/
def locateItems : Shape → List Value → Except LocationError Range
  | .tuple => locateForward
  | .list => locateBackward
  | .series _ => locateBackward

mutual

/-- The parts of a value that are reached by opening sequences, in order. -/
def leaves : Value → List Value
  | .sequence shape guise items =>
      match guise.bind fun guise => guise.handle.range? with
      | some _ => [.sequence shape guise items]
      | none => leavesOfItems items
  | value => [value]

/-- The leaves of all items, one item after the other. -/
def leavesOfItems : List Value → List Value
  | [] => []
  | item :: rest => item.leaves ++ leavesOfItems rest

end

theorem leavesOfItems_eq_flatMap (items : List Value) :
    leavesOfItems items = items.flatMap leaves := by
  induction items with
  | nil => rfl
  | cons item rest inductionHypothesis =>
      rw [leavesOfItems, inductionHypothesis, List.flatMap_cons]

section Opening

variable {value : Value} {shape : Shape} {items : List Value}

theorem eq_sequence_of_opened (opened : value.opened? = some (shape, items)) :
    ∃ guise, value = .sequence shape guise items ∧
      (guise.bind fun guise => guise.handle.range?) = none := by
  cases value with
  | sequence ownShape guise ownItems =>
      refine ⟨guise, ?_⟩
      unfold opened? at opened
      cases placed : guise.bind fun guise => guise.handle.range? with
      | none =>
          simp only [placed, Option.some.injEq, Prod.mk.injEq] at opened
          obtain ⟨rfl, rfl⟩ := opened
          exact ⟨rfl, rfl⟩
      | some location => simp [placed] at opened
  | _ => cases opened

/-- A node that can be asked for its location is not opened. -/
theorem opened_of_handle
    {handle : Handle}
    {location : Range}
    (exposed : value.handle? = some handle)
    (placed : handle.range? = some location) :
    value.opened? = none := by
  cases value with
  | sequence shape guise items =>
      cases guise with
      | none => cases exposed
      | some guise =>
          cases exposed
          simp only [opened?, Option.bind_some, placed]
  | _ => rfl

theorem ownRange_of_handle
    {handle : Handle}
    {location : Range}
    (exposed : value.handle? = some handle)
    (placed : handle.range? = some location) :
    value.ownRange? = some location := by
  cases value with
  | sequence shape guise items =>
      simp only [ownRange?, exposed]
      exact placed
  | node kind own parts =>
      cases exposed
      exact placed
  | entity kind own mark =>
      cases exposed
      exact placed
  | _ => cases exposed

theorem leaves_of_opened (opened : value.opened? = some (shape, items)) :
    value.leaves = items.flatMap leaves := by
  obtain ⟨guise, rfl, unplaced⟩ := eq_sequence_of_opened opened
  rw [leaves, unplaced]
  exact leavesOfItems_eq_flatMap items

/-- A sequence that is not opened is a node with a location. -/
theorem exists_guise_of_leaf
    {guise : Option Guise}
    (leaf : (Value.sequence shape guise items).opened? = none) :
    ∃ own location, guise = some own ∧
      own.handle.range? = some location := by
  unfold opened? at leaf
  cases placed : guise.bind fun guise => guise.handle.range? with
  | none => simp [placed] at leaf
  | some location =>
      obtain ⟨own, rfl, exposed⟩ := Option.bind_eq_some_iff.mp placed
      exact ⟨own, location, rfl, exposed⟩

theorem leaves_of_leaf (leaf : value.opened? = none) :
    value.leaves = [value] := by
  cases value with
  | sequence shape guise items =>
      obtain ⟨own, location, rfl, placed⟩ := exists_guise_of_leaf leaf
      simp only [leaves, Option.bind_some, placed]
  | _ => rfl

theorem locate_of_opened (opened : value.opened? = some (shape, items)) :
    value.locate = locateItems shape items := by
  obtain ⟨guise, rfl, unplaced⟩ := eq_sequence_of_opened opened
  cases shape <;> simp only [locate, unplaced, locateItems]

theorem locate_of_ownRange
    {location : Range}
    (located : value.ownRange? = some location) :
    value.locate = .ok location := by
  cases value with
  | range own =>
      cases located
      exact locate_range location
  | interval own =>
      cases located
      exact locate_interval own
  | absent =>
      cases located
      exact locate_absent
  | sequence shape guise items =>
      obtain ⟨handle, exposed, placed⟩ := Option.bind_eq_some_iff.mp located
      exact locate_of_handle exposed placed
  | node kind handle parts => exact locate_of_handle rfl located
  | entity kind handle mark => exact locate_of_handle rfl located
  | _ => cases located

/-- A leaf is located where it says itself, or it is rangeless. -/
theorem locate_of_leaf (leaf : value.opened? = none) :
    value.locate =
      match value.ownRange? with
      | some location => .ok location
      | none => .error (.rangeless value.kind) := by
  cases value with
  | sequence shape guise items =>
      obtain ⟨own, location, rfl, placed⟩ := exists_guise_of_leaf leaf
      rw [locate_of_handle rfl placed, ownRange_of_handle rfl placed]
  | _ =>
      simp only [locate]
      rfl

theorem ownRange_of_locate
    (leaf : value.opened? = none)
    {location : Range}
    (located : value.locate = .ok location) :
    value.ownRange? = some location := by
  rw [locate_of_leaf leaf] at located
  split at located
  · cases located
    assumption
  · cases located

theorem sizeOf_lt_of_opened
    (opened : value.opened? = some (shape, items))
    {item : Value}
    (member : item ∈ items) :
    sizeOf item < sizeOf value := by
  obtain ⟨guise, rfl, -⟩ := eq_sequence_of_opened opened
  have smaller := List.sizeOf_lt_of_mem member
  simp only [sequence.sizeOf_spec]
  omega

end Opening

/-- What holds of all leaves, and of a sequence when it holds of the items that
locating opens, holds of every value. -/
theorem openingInduction
    {motive : Value → Prop}
    (leaf : ∀ value, value.opened? = none → motive value)
    (sequence : ∀ value shape items, value.opened? = some (shape, items) →
      (∀ item ∈ items, motive item) → motive value)
    (value : Value) :
    motive value := by
  cases opened : value.opened? with
  | none => exact leaf value opened
  | some pair =>
      refine sequence value pair.1 pair.2 opened ?_
      intro item member
      exact openingInduction leaf sequence item
  termination_by sizeOf value
  decreasing_by exact sizeOf_lt_of_opened opened member

@[simp] theorem locateItems_nil (shape : Shape) :
    locateItems shape [] = .ok ∅ := by
  cases shape <;> rfl

/-- A sequence is located when its first item and the others are, whichever
end the search begins at. -/
theorem locateItems_cons_eq_ok_iff
    {shape : Shape}
    {item : Value}
    {rest : List Value}
    {location : Range} :
    locateItems shape (item :: rest) = .ok location ↔
      ∃ front back, item.locate = .ok front ∧
        locateItems shape rest = .ok back ∧ front ∪ back = location := by
  cases shape with
  | tuple =>
      simp only [locateItems, locateForward]
      cases item.locate <;> cases locateForward rest <;>
        simp [bind, Except.bind, pure, Except.pure]
  | _ =>
      simp only [locateItems, locateBackward]
      cases item.locate <;> cases locateBackward rest <;>
        simp [bind, Except.bind, pure, Except.pure]

/-- The locations of the leaves, in order. -/
def leafRanges (value : Value) : List Range :=
  value.leaves.filterMap ownRange?

theorem leafRanges_of_opened
    {value : Value}
    {shape : Shape}
    {items : List Value}
    (opened : value.opened? = some (shape, items)) :
    value.leafRanges = items.flatMap leafRanges := by
  rw [leafRanges, leaves_of_opened opened, List.filterMap_flatMap]
  rfl

theorem gathered_of_locateItems
    {shape : Shape}
    {items : List Value}
    (gathered : ∀ item ∈ items, ∀ location, item.locate = .ok location →
      Range.Gathered item.leafRanges location)
    {location : Range}
    (located : locateItems shape items = .ok location) :
    Range.Gathered (items.flatMap leafRanges) location := by
  induction items generalizing location with
  | nil =>
      rw [locateItems_nil] at located
      cases located
      exact .nothing
  | cons item rest inductionHypothesis =>
      rw [List.forall_mem_cons] at gathered
      rw [locateItems_cons_eq_ok_iff] at located
      obtain ⟨front, back, locatedFront, locatedBack, rfl⟩ := located
      rw [List.flatMap_cons]
      exact .both (gathered.1 front locatedFront)
        (inductionHypothesis gathered.2 locatedBack)

/-- The location of a value is gathered from its leaves. -/
theorem gathered_of_locate
    {value : Value}
    {location : Range}
    (located : value.locate = .ok location) :
    Range.Gathered value.leafRanges location := by
  induction value using openingInduction generalizing location with
  | leaf value leaf =>
      rw [leafRanges, leaves_of_leaf leaf,
        List.filterMap_cons_some (ownRange_of_locate leaf located)]
      exact .single location
  | sequence value shape items opened inductionHypothesis =>
      rw [leafRanges_of_opened opened]
      rw [locate_of_opened opened] at located
      apply gathered_of_locateItems _ located
      intro item member location
      exact inductionHypothesis item member

theorem exists_locateItems
    {shape : Shape}
    {items : List Value}
    (located : ∀ item ∈ items, ∃ location, item.locate = .ok location) :
    ∃ location, locateItems shape items = .ok location := by
  induction items with
  | nil => exact ⟨∅, locateItems_nil shape⟩
  | cons item rest inductionHypothesis =>
      rw [List.forall_mem_cons] at located
      obtain ⟨front, locatedFront⟩ := located.1
      obtain ⟨back, locatedBack⟩ := inductionHypothesis located.2
      refine ⟨front ∪ back, ?_⟩
      rw [locateItems_cons_eq_ok_iff]
      exact ⟨front, back, locatedFront, locatedBack, rfl⟩

/-- A value is located when all its leaves are. -/
theorem exists_locate
    {value : Value}
    (placed : ∀ leaf ∈ value.leaves, leaf.ownRange?.isSome) :
    ∃ location, value.locate = .ok location := by
  induction value using openingInduction with
  | leaf value leaf =>
      rw [leaves_of_leaf leaf, List.forall_mem_singleton] at placed
      obtain ⟨location, own⟩ := Option.isSome_iff_exists.mp placed
      exact ⟨location, locate_of_ownRange own⟩
  | sequence value shape items opened inductionHypothesis =>
      rw [leaves_of_opened opened, List.forall_mem_flatMap] at placed
      rw [locate_of_opened opened]
      apply exists_locateItems
      intro item member
      exact inductionHypothesis item member (placed item member)

end Value
end Locus
