import Locus.Sample
import Locus.Value.Location

/-!
# Relocation as a lens

A value that can be relocated is a location in a frame: the frame has the class
and all other parts of the value. Relocating fills the frame anew and locating
reads what fills it, so the two are the halves of a lens on any locations,
canonical or not. They accept different values: intervals, absent values and
plain sequences can be located but have no frame. A node of any class that has
both halves does have one, which is all that relocating leaves as it is.
-/

namespace Locus

/-- What is left of a value that can be relocated when its location is taken
out. -/
inductive Frame
  /-- Nothing is left of a range. -/
  | range
  /-- A sequence in the guise of a node. -/
  | sequence (shape : Shape) (kind : Kind) (items : List Value)
  /-- A node with its further parts. -/
  | node (kind : Kind) (parts : List Value)
  /-- A node without further parts. -/
  | entity (kind : Kind)

namespace Frame

/-- The value in the frame at a location. -/
def fill : Frame → Range → Value
  | .range, location => .range location
  | .sequence shape kind items, location =>
      .sequence shape (some ⟨kind, .movable location⟩) items
  | .node kind parts, location => .node kind (.movable location) parts
  | .entity kind, location => .entity kind (.movable location) none

/-- The location does not tell the class. -/
theorem kind_fill (frame : Frame) (location other : Range) :
    (frame.fill location).kind = (frame.fill other).kind := by
  cases frame <;> rfl

end Frame

namespace Value

open Sample (positionAt)

/-- The frame of a value that can be relocated. -/
def frame? : Value → Option Frame
  | .range _ => some .range
  | .sequence shape (some ⟨kind, .movable _⟩) items =>
      some (.sequence shape kind items)
  | .node kind (.movable _) parts => some (.node kind parts)
  | .entity kind (.movable _) _ => some (.entity kind)
  | _ => none

/-- The value as a new one. Only entities are told apart from their copies, all
other values are the same as these. -/
def copy : Value → Value
  | .entity kind handle _ => .entity kind handle none
  | value => value

/-- A value that is known by its parts or items is the same as its copy. -/
theorem copy_eq_self
    {value : Value}
    (known : ∀ kind handle mark, value ≠ .entity kind handle mark) :
    value.copy = value := by
  cases value with
  | entity kind handle mark => exact absurd rfl (known kind handle mark)
  | _ => rfl

/-- The value is a range or a node whose location can be replaced. -/
def Relocatable (value : Value) : Prop :=
  (∃ location, value = .range location) ∨ value.isMovable

@[simp] theorem frame?_fill (frame : Frame) (location : Range) :
    (frame.fill location).frame? = some frame := by
  cases frame <;> rfl

theorem frame?_eq_none_iff {value : Value} :
    value.frame? = none ↔ ¬value.Relocatable := by
  cases value with
  | sequence shape guise items =>
      rcases guise with _ | ⟨kind, _ | _ | _⟩ <;>
        simp [frame?, Relocatable, isMovable, handle?, Handle.isMovable]
  | node kind handle parts =>
      cases handle <;>
        simp [frame?, Relocatable, isMovable, handle?, Handle.isMovable]
  | entity kind handle mark =>
      cases handle <;>
        simp [frame?, Relocatable, isMovable, handle?, Handle.isMovable]
  | _ => simp [frame?, Relocatable, isMovable, handle?]

theorem exists_frame_of_relocatable
    {value : Value}
    (relocatable : value.Relocatable) :
    ∃ frame, value.frame? = some frame := by
  cases framed : value.frame? with
  | none => exact absurd relocatable (frame?_eq_none_iff.mp framed)
  | some frame => exact ⟨frame, rfl⟩

/-- Relocating fills the frame of a value, if it has one. -/
theorem relocate_eq (value : Value) (location : Range) :
    value.relocate location =
      match value.frame? with
      | some frame => .ok (frame.fill location)
      | none => .error (.immovable value.kind) := by
  cases value with
  | sequence shape guise items =>
      rcases guise with _ | ⟨kind, _ | _ | _⟩ <;> rfl
  | node kind handle parts => cases handle <;> rfl
  | entity kind handle mark => cases handle <;> rfl
  | _ => rfl

/-- A value with a frame is, up to a copy, its frame filled with its own
location. -/
theorem exists_fill_of_frame
    {value : Value}
    {frame : Frame}
    (framed : value.frame? = some frame) :
    ∃ location, value.locate = .ok location ∧
      frame.fill location = value.copy := by
  cases value with
  | range location =>
      cases framed
      exact ⟨location, locate_range location, rfl⟩
  | sequence shape guise items =>
      rcases guise with _ | ⟨kind, _ | location | _⟩ <;> cases framed
      exact ⟨location, locate_of_handle rfl rfl, rfl⟩
  | node kind handle parts =>
      rcases handle with _ | location | _ <;> cases framed
      exact ⟨location, locate_of_handle rfl rfl, rfl⟩
  | entity kind handle mark =>
      rcases handle with _ | location | _ <;> cases framed
      exact ⟨location, locate_of_handle rfl rfl, rfl⟩
  | _ => cases framed

section Relocate

variable {value moved target : Value} {location : Range}

theorem relocate_eq_ok_iff :
    value.relocate location = .ok moved ↔
      ∃ frame, value.frame? = some frame ∧ frame.fill location = moved := by
  rw [relocate_eq]
  cases value.frame? <;> simp

theorem relocate_eq_error_iff {error : LocationError} :
    value.relocate location = .error error ↔
      ¬value.Relocatable ∧ .immovable value.kind = error := by
  rw [relocate_eq, ← frame?_eq_none_iff]
  cases value.frame? <;> simp

theorem kind_of_relocate (relocated : value.relocate location = .ok moved) :
    moved.kind = value.kind := by
  obtain ⟨frame, framed, rfl⟩ := relocate_eq_ok_iff.mp relocated
  obtain ⟨own, -, filled⟩ := exists_fill_of_frame framed
  have copied : value.copy.kind = value.kind := by cases value <;> rfl
  rw [← copied, ← filled]
  exact frame.kind_fill location own

theorem frame?_of_relocate (relocated : value.relocate location = .ok moved) :
    moved.frame? = value.frame? := by
  obtain ⟨frame, framed, rfl⟩ := relocate_eq_ok_iff.mp relocated
  rw [frame?_fill, framed]

/-- Of two relocations only the last one counts. -/
theorem relocate_of_relocate
    (relocated : value.relocate location = .ok moved)
    (other : Range) :
    moved.relocate other = value.relocate other := by
  obtain ⟨frame, framed, rfl⟩ := relocate_eq_ok_iff.mp relocated
  rw [relocate_eq, relocate_eq, frame?_fill, framed]

/-- Relocating a value to where it is gives a copy of it. -/
theorem exists_relocate_eq_copy
    {frame : Frame}
    (framed : value.frame? = some frame) :
    ∃ own, value.locate = .ok own ∧ value.relocate own = .ok value.copy := by
  obtain ⟨own, located, filled⟩ := exists_fill_of_frame framed
  exact ⟨own, located, relocate_eq_ok_iff.mpr ⟨frame, framed, filled⟩⟩

theorem relocateTo_of_locate (located : target.locate = .ok location) :
    value.relocateTo target = value.relocate location := by
  rw [relocateTo, located]
  rfl

/-- The error of the target counts first. -/
theorem relocateTo_eq_error_iff {error : LocationError} :
    value.relocateTo target = .error error ↔
      target.locate = .error error ∨
        (∃ location, target.locate = .ok location) ∧
          ¬value.Relocatable ∧ .immovable value.kind = error := by
  cases located : target.locate with
  | error own =>
      rw [relocateTo, located]
      simp [bind, Except.bind]
  | ok location =>
      rw [relocateTo_of_locate located, relocate_eq_error_iff]
      simp

theorem relocateTo_eq_ok_iff :
    value.relocateTo target = .ok moved ↔
      ∃ location, target.locate = .ok location ∧
        value.relocate location = .ok moved := by
  cases located : target.locate with
  | error own =>
      rw [relocateTo, located]
      simp [bind, Except.bind]
  | ok location =>
      rw [relocateTo_of_locate located]
      simp

/-- Of two targets only the last one counts. -/
theorem relocateTo_of_relocateTo
    (relocated : value.relocateTo target = .ok moved)
    (third : Value) :
    moved.relocateTo third = value.relocateTo third := by
  obtain ⟨location, -, relocated⟩ := relocateTo_eq_ok_iff.mp relocated
  cases located : third.locate with
  | error own => rw [relocateTo, relocateTo, located]; rfl
  | ok other =>
      rw [relocateTo_of_locate located, relocateTo_of_locate located,
        relocate_of_relocate relocated]

end Relocate

/-- Locating and relocating are a lens on the values that can be relocated. What
was put in is found again, putting back what is there gives a copy, the last of
two relocations counts, and the class and all parts but the location stay as
they are. A copy is the value itself unless that is an entity. Values that cannot
be relocated are refused. Relocating to the location of a target fails
where the target has none, or else where the value is refused, and obeys the same
laws. -/
theorem relocation_is_lens :
    (∀ (value moved : Value) (location : Range),
      value.relocate location = .ok moved →
        moved.locate = .ok location ∧
        (∃ own, value.locate = .ok own ∧
          value.relocate own = .ok value.copy) ∧
        (∀ other, moved.relocate other = value.relocate other) ∧
        moved.kind = value.kind ∧ moved.frame? = value.frame?) ∧
    (∀ value : Value, (∀ kind handle mark, value ≠ .entity kind handle mark) →
      value.copy = value) ∧
    (∀ (value : Value) (location : Range) (error : LocationError),
      value.relocate location = .error error ↔
        ¬value.Relocatable ∧ .immovable value.kind = error) ∧
    (¬Value.absent.Relocatable ∧
      (∀ interval, ¬(Value.interval interval).Relocatable) ∧
      ∀ items, ¬(Value.tuple items).Relocatable ∧
        ¬(Value.list items).Relocatable) ∧
    (∀ (value target : Value) (error : LocationError),
      value.relocateTo target = .error error ↔
        target.locate = .error error ∨
          (∃ location, target.locate = .ok location) ∧
            ¬value.Relocatable ∧ .immovable value.kind = error) ∧
    (∀ value moved target : Value, value.relocateTo target = .ok moved →
      moved.locate = target.locate ∧
      ∀ third, moved.relocateTo third = value.relocateTo third) ∧
    (∀ value : Value, value.Relocatable →
      value.relocateTo value = .ok value.copy) := by
  refine ⟨?_, fun _ => copy_eq_self, fun _ _ _ => relocate_eq_error_iff, ?_,
    fun _ _ _ => relocateTo_eq_error_iff, ?_, ?_⟩
  · intro value moved location relocated
    obtain ⟨frame, framed, -⟩ := relocate_eq_ok_iff.mp relocated
    exact ⟨locate_of_relocate relocated, exists_relocate_eq_copy framed,
      relocate_of_relocate relocated, kind_of_relocate relocated,
      frame?_of_relocate relocated⟩
  · refine ⟨frame?_eq_none_iff.mp rfl, ?_, ?_⟩
    · intro interval
      exact frame?_eq_none_iff.mp rfl
    · intro items
      exact ⟨frame?_eq_none_iff.mp rfl, frame?_eq_none_iff.mp rfl⟩
  · intro value moved target relocated
    obtain ⟨location, located, filled⟩ := relocateTo_eq_ok_iff.mp relocated
    rw [locate_of_relocate filled, located]
    exact ⟨rfl, relocateTo_of_relocateTo relocated⟩
  · intro value relocatable
    obtain ⟨frame, framed⟩ := exists_frame_of_relocatable relocatable
    obtain ⟨own, located, copied⟩ := exists_relocate_eq_copy framed
    rw [relocateTo_of_locate located, copied]

/-- The class of names, which have a text besides their location. -/
def nameKind : Kind where
  home := "client"
  name := "Name"
  labels := ["text"]

/-- A name without a location. -/
def name : Value :=
  .node nameKind (.movable ∅) [.text "x"]

/-- A range that is out of order. -/
def fallingRange : Range :=
  ⟨[⟨positionAt 5, positionAt 4⟩, ⟨positionAt 1, positionAt 3⟩]⟩

/-- A list that is a node, at that range. -/
def listNode : Value :=
  .sequence .list (some ⟨.builtin "Block", .movable fallingRange⟩)
    [.truth true]

/-- A name is moved to where the list is and back to nowhere. A tuple with the
name in it cannot be moved. -/
theorem relocation_is_lens_of_name :
    name.Relocatable ∧ name.relocateTo name = .ok name ∧
    (∃ moved, name.relocateTo listNode = .ok moved ∧
      moved.locate = .ok fallingRange ∧
      moved.relocateTo .absent = .ok name) ∧
    (Value.tuple [name]).relocate ∅ =
      .error (.immovable (.builtin "tuple")) := by
  obtain ⟨-, copies, refusals, ⟨-, -, plain⟩, -, targets, selves⟩ :=
    relocation_is_lens
  have relocatable : name.Relocatable := Or.inr rfl
  have located : listNode.locate = .ok fallingRange :=
    locate_of_handle rfl rfl
  have relocated : name.relocateTo listNode =
      .ok (.node nameKind (.movable fallingRange) [.text "x"]) :=
    relocateTo_of_locate located
  have same : name.copy = name := copies name (by intros; nofun)
  have nowhere : name.relocateTo .absent = .ok name :=
    relocateTo_of_locate locate_absent
  obtain ⟨found, lastCounts⟩ := targets _ _ _ relocated
  refine ⟨relocatable, (selves name relocatable).trans (congrArg _ same),
    ⟨_, relocated, found.trans located, (lastCounts .absent).trans nowhere⟩,
    ?_⟩
  exact (refusals _ _ _).mpr ⟨(plain [name]).1, rfl⟩

end Value

end Locus
