import Locus.Proofs.Value.Leaves

/-!
# Values that cannot be located

A leaf is rangeless when it is no location, is not absent and cannot be asked
for a location. Locating asks the leaves of tuples from the front and those of
all other sequences from the back, at every depth of nesting, and stops at the
first rangeless one. So a value cannot be located when any of its leaves is
rangeless, and the error names the class of the one that is asked first.

The leaves lie inside sequences of every class, and not only inside tuples and
lists. A progression has no location by itself, but is opened all the same.
-/

namespace Locus

/-- What comes first when a sequence of the shape is searched, the items in
front or those behind them. -/
def Shape.arrange {α : Type} : Shape → List α → List α → List α
  | .tuple, front, back => front ++ back
  | .list, front, back => back ++ front
  | .series _, front, back => back ++ front

/-- The error of an outcome, if there is one. -/
def failure? : Except LocationError Range → Option LocationError
  | .ok _ => none
  | .error error => some error

@[simp] theorem failure?_eq_some_iff
    {outcome : Except LocationError Range}
    {error : LocationError} :
    failure? outcome = some error ↔ outcome = .error error := by
  cases outcome <;> simp [failure?]

/-- Of two outcomes that are needed the first failing one counts. -/
theorem failure?_bind
    (first second : Except LocationError Range)
    (combine : Range → Range → Range) :
    failure? (do
      let firstRange ← first
      let secondRange ← second
      return combine firstRange secondRange) =
      (failure? first).or (failure? second) := by
  cases first <;> cases second <;> rfl

namespace Value

open Sample (positionAt)

/-- The value is no location, not absent, and no node that can be asked for its
location. -/
def isRangeless : Value → Bool
  | .range _ => false
  | .interval _ => false
  | .absent => false
  | value => !value.isLocated

mutual

/-- The leaves of a value in the order in which locating asks them. -/
def asked : Value → List Value
  | .sequence shape guise items =>
      match guise.bind fun guise => guise.handle.range? with
      | some _ => [.sequence shape guise items]
      | none => askedItems shape items
  | value => [value]

/-- The leaves of the items of a sequence of some shape, in that order. -/
def askedItems : Shape → List Value → List Value
  | _, [] => []
  | shape, item :: rest => shape.arrange item.asked (askedItems shape rest)

end

/-- The error that the first rangeless one of some leaves causes. -/
def firstFailure? (leaves : List Value) : Option LocationError :=
  (leaves.find? isRangeless).map fun leaf => .rangeless leaf.kind

theorem firstFailure?_append (front back : List Value) :
    firstFailure? (front ++ back) =
      (firstFailure? front).or (firstFailure? back) := by
  unfold firstFailure?
  rw [List.find?_append, Option.map_or]

section Opening

variable {value : Value} {shape : Shape} {items : List Value}

theorem asked_of_opened (opened : value.opened? = some (shape, items)) :
    value.asked = askedItems shape items := by
  obtain ⟨guise, rfl, unplaced⟩ := eq_sequence_of_opened opened
  rw [asked, unplaced]

theorem asked_of_leaf (leaf : value.opened? = none) :
    value.asked = [value] := by
  cases value with
  | sequence shape guise items =>
      obtain ⟨own, location, rfl, placed⟩ := exists_guise_of_leaf leaf
      simp only [asked, Option.bind_some, placed]
  | _ => rfl

end Opening

/-- A value is rangeless when it has no location by itself. -/
theorem isRangeless_eq (value : Value) :
    value.isRangeless = value.ownRange?.isNone := by
  have negated (location : Option Range) :
      (!location.isSome) = location.isNone := by
    cases location <;> rfl
  cases value with
  | sequence shape guise items => exact negated _
  | node kind handle parts => exact negated _
  | entity kind handle mark => exact negated _
  | _ => rfl

theorem failure?_locate_of_leaf
    {value : Value}
    (leaf : value.opened? = none) :
    failure? value.locate = firstFailure? [value] := by
  rw [locate_of_leaf leaf, firstFailure?, List.find?_singleton, isRangeless_eq]
  cases value.ownRange? <;> rfl

theorem failure?_locateItems
    {shape : Shape}
    {items : List Value}
    (located : ∀ item ∈ items,
      failure? item.locate = firstFailure? item.asked) :
    failure? (locateItems shape items) =
      firstFailure? (askedItems shape items) := by
  induction items with
  | nil => cases shape <;> rfl
  | cons item rest inductionHypothesis =>
      rw [List.forall_mem_cons] at located
      have locatedRest := inductionHypothesis located.2
      cases shape with
      | tuple =>
          rw [askedItems, Shape.arrange, firstFailure?_append, ← located.1,
            ← locatedRest]
          exact failure?_bind item.locate (locateForward rest) (· ∪ ·)
      | _ =>
          rw [askedItems, Shape.arrange, firstFailure?_append, ← located.1,
            ← locatedRest]
          exact failure?_bind (locateBackward rest) item.locate
            fun back front => front ∪ back

/-- Locating fails at the first rangeless leaf that is asked. -/
theorem failure?_locate (value : Value) :
    failure? value.locate = firstFailure? value.asked := by
  induction value using openingInduction with
  | leaf value leaf =>
      rw [asked_of_leaf leaf, failure?_locate_of_leaf leaf]
  | sequence value shape items opened inductionHypothesis =>
      rw [locate_of_opened opened, asked_of_opened opened]
      exact failure?_locateItems inductionHypothesis

theorem locate_eq_error_iff {value : Value} {error : LocationError} :
    value.locate = .error error ↔
      ∃ leaf, value.asked.find? isRangeless = some leaf ∧
        .rangeless leaf.kind = error := by
  rw [← failure?_eq_some_iff, failure?_locate, firstFailure?,
    Option.map_eq_some_iff]

/-- A node that is a tuple at the same time. -/
def placedPair : Value :=
  .sequence .tuple (some ⟨.builtin "Pair", .fixed ∅⟩) [.truth true]

/-- The class of a list that cannot be asked for its location. -/
def hiddenBlock : Guise :=
  ⟨.builtin "Block", .hidden⟩

/-- A node beside a list with several rangeless parts, and two progressions. -/
def unplaced : Value :=
  .tuple
    [placedPair,
      .sequence .list (some hiddenBlock)
        [.text "", .tuple [.absent, .bytes [], .number 3],
          .interval ⟨positionAt 1, positionAt 3⟩, progression 0],
      progression 2]

mutual

/-- The parts of a value that are reached through plain tuples and lists
alone. -/
def plainLeaves : Value → List Value
  | .tuple items => plainLeavesOfItems items
  | .list items => plainLeavesOfItems items
  | value => [value]

/-- The parts of all items that are reached so, one item after the other. -/
def plainLeavesOfItems : List Value → List Value
  | [] => []
  | item :: rest => item.plainLeaves ++ plainLeavesOfItems rest

end

end Value

end Locus
