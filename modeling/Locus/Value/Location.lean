import Locus.Range.Union
import Locus.Value.Basic

/-!
# Locations of values

A located node answers with its own location. Intervals and ranges are
locations themselves, an absent value has the empty location, and any other
sequence has the union of the locations of its items. Everything else has no
location, texts and strings of bytes included. Tuples are searched from the
front and all other sequences from the back, which decides which rangeless part
is reported when there are several.
-/

namespace Locus

/-- Why a value cannot be located or moved. -/
inductive LocationError
  /-- A value of this class has no location. -/
  | rangeless (kind : Kind)
  /-- The location of a value of this class cannot be replaced. -/
  | immovable (kind : Kind)
  deriving DecidableEq

/-- What is said about the error. -/
def LocationError.message : LocationError → String
  | .rangeless kind => "value has no range: " ++ kind.render
  | .immovable kind => "cannot set the range of " ++ kind.render

/-- The location that a handle exposes for a node of the given class. -/
def Handle.locate (handle : Handle) (kind : Kind) :
    Except LocationError Range :=
  match handle.range? with
  | some location => .ok location
  | none => .error (.rangeless kind)

namespace Value

mutual

/-- The location of a value. A sequence in the guise of a node answers with
its own location whatever its items are. -/
def locate : Value → Except LocationError Range
  | .range location => .ok location
  | .interval location => .ok location.toRange
  | .absent => .ok ∅
  | .node kind handle _ => handle.locate kind
  | .entity kind handle _ => handle.locate kind
  | .sequence shape guise items =>
      match guise.bind fun guise => guise.handle.range? with
      | some location => .ok location
      | none =>
          match shape with
          | .tuple => locateForward items
          | .list => locateBackward items
          | .series _ => locateBackward items
  | value => .error (.rangeless value.kind)

/-- The union of the locations of the items, searched from the front. -/
def locateForward : List Value → Except LocationError Range
  | [] => .ok ∅
  | item :: rest => do
      let front ← item.locate
      let back ← locateForward rest
      return front ∪ back

/-- The union of the locations of the items, searched from the back. -/
def locateBackward : List Value → Except LocationError Range
  | [] => .ok ∅
  | item :: rest => do
      let back ← locateBackward rest
      let front ← item.locate
      return front ∪ back

end

/-- The union of the locations of two values, the first searched first. -/
def locateBoth (first second : Value) : Except LocationError Range := do
  let front ← first.locate
  let back ← second.locate
  return front ∪ back

/-- The value with its location replaced. A range is its own location. A moved
entity is a new one, so it loses its mark. -/
def relocate (value : Value) (range : Range) : Except LocationError Value :=
  match value with
  | .range _ => .ok (.range range)
  | .sequence shape (some ⟨kind, .movable _⟩) items =>
      .ok (.sequence shape (some ⟨kind, .movable range⟩) items)
  | .node kind (.movable _) parts => .ok (.node kind (.movable range) parts)
  | .entity kind (.movable _) _ => .ok (.entity kind (.movable range) none)
  | other => .error (.immovable other.kind)

/-- The first value with its location replaced by that of the second. -/
def relocateTo (value target : Value) : Except LocationError Value := do
  let range ← target.locate
  value.relocate range

@[simp] theorem locate_range (range : Range) :
    (Value.range range).locate = .ok range := by
  rw [locate]

@[simp] theorem locate_interval (interval : Interval) :
    (Value.interval interval).locate = .ok interval.toRange := by
  rw [locate]

@[simp] theorem locate_absent : Value.absent.locate = .ok ∅ := by
  rw [locate]

@[simp] theorem locate_ranged (range : Range) :
    (ranged range).locate = .ok range := by
  rw [ranged, locate]
  rfl

@[simp] theorem locate_tuple (items : List Value) :
    (Value.tuple items).locate = locateForward items := by
  rw [locate]
  rfl

@[simp] theorem locate_list (items : List Value) :
    (Value.list items).locate = locateBackward items := by
  rw [locate]
  rfl

/-- A node with a location is asked for nothing else. -/
theorem locate_of_handle
    {value : Value}
    {handle : Handle}
    {location : Range}
    (exposed : value.handle? = some handle)
    (placed : handle.range? = some location) :
    value.locate = .ok location := by
  cases value with
  | sequence shape guise items =>
      cases guise with
      | none => cases exposed
      | some guise =>
          cases exposed
          simp only [locate, Option.bind_some, placed]
  | node kind own parts =>
      cases exposed
      rw [locate, Handle.locate, placed]
  | entity kind own mark =>
      cases exposed
      rw [locate, Handle.locate, placed]
  | _ => cases exposed

/-- A tuple is located by its length: without items it is nowhere, a single item
stands for itself, two items are located together, and of more the first one is
located together with the tuple of the others. -/
theorem locate_tuple_by_length :
    (Value.tuple []).locate = .ok ∅ ∧
    (∀ item : Value, (Value.tuple [item]).locate = item.locate) ∧
    (∀ first second : Value,
      (Value.tuple [first, second]).locate = first.locateBoth second) ∧
    (∀ (first second third : Value) (rest : List Value),
      (Value.tuple (first :: second :: third :: rest)).locate =
        first.locateBoth (.tuple (second :: third :: rest))) := by
  have single (item : Value) :
      (Value.tuple [item]).locate = item.locate := by
    simp only [locate_tuple, locateForward]
    cases item.locate with
    | error error => rfl
    | ok location => exact congrArg Except.ok (Range.union_empty location)
  have longer (item : Value) (rest : List Value) :
      (Value.tuple (item :: rest)).locate = item.locateBoth (.tuple rest) := by
    rw [locateBoth, locate_tuple, locate_tuple, locateForward]
  refine ⟨locate_tuple [], single, ?_, ?_⟩
  · intro first second
    rw [longer, locateBoth, single, locateBoth]
  · intro first second third rest
    exact longer first (second :: third :: rest)

/-- A range that was put into a value is found there again. -/
theorem locate_of_relocate
    {value moved : Value}
    {range : Range}
    (relocated : value.relocate range = .ok moved) :
    moved.locate = .ok range := by
  unfold relocate at relocated
  split at relocated <;> cases relocated
  · exact locate_range range
  all_goals exact locate_of_handle rfl rfl

end Value

end Locus
