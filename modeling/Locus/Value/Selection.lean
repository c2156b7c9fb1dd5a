import Locus.Sorting.Adaptive
import Locus.Value.Order

/-!
# Choosing among values

The least and the greatest of some values, their ascending arrangement, and
the distinct values among them. Of several equal values the first is chosen,
and sorting keeps their order. Values are told apart by hash codes, which
nothing has that holds a list or a sequence like it, a set, a dictionary or a
fault.
-/

namespace Locus

/-- An end of the order. -/
inductive Extreme
  /-- Nothing is before it. -/
  | least
  /-- Nothing is after it. -/
  | greatest
  deriving DecidableEq

namespace Extreme

/-- The name of the extreme in messages. -/
def name : Extreme → String
  | .least => "min"
  | .greatest => "max"

/-- How a value stands to all others that it replaces as the extreme. -/
def relation : Extreme → Relation
  | .least => .less
  | .greatest => .greater

end Extreme

/-- Why no value can be chosen. -/
inductive SelectionError
  /-- There are no values. -/
  | empty (extreme : Extreme)
  /-- Two of the values have no order. -/
  | incomparable (cause : Incomparable)
  /-- A value of this class has no hash code. -/
  | unhashable (kind : Kind)
  deriving DecidableEq

/-- What is said about the error. -/
def SelectionError.message : SelectionError → String
  | .empty extreme => extreme.name ++ "() arg is an empty sequence"
  | .incomparable cause => cause.message
  | .unhashable kind => "unhashable type: '" ++ kind.name ++ "'"

namespace Value

/-- The value itself if it stands beyond the best so far, and else the best. -/
def challenge (extreme : Extreme) (best value : Value) :
    Except SelectionError Value :=
  match value.relate extreme.relation best with
  | .ok true => .ok value
  | .ok false => .ok best
  | .error cause => .error (.incomparable cause)

/-- The first of the extreme values. -/
def select (extreme : Extreme) : List Value → Except SelectionError Value
  | [] => .error (.empty extreme)
  | value :: rest => rest.foldlM (challenge extreme) value

/-- Whether the first value stands before the second. -/
def precedes (first second : Value) : Except SelectionError Bool :=
  match first.relate .less second with
  | .ok before => .ok before
  | .error cause => .error (.incomparable cause)

/-- The values in ascending order; equal values keep their order. -/
def sortUp (values : List Value) : Except SelectionError (List Value) :=
  Sorting.sort precedes values

/-- The values in descending order; equal values keep their order. -/
def sortDown (values : List Value) : Except SelectionError (List Value) := do
  let ascending ← sortUp values.reverse
  return ascending.reverse

mutual

/-- The class of the first part, read from the front, that has no hash code. -/
def unhashable? : Value → Option Kind
  | .fault value => some (Value.fault value).kind
  | .offsets value => some (Value.offsets value).kind
  | .dictionary entries => some (Value.dictionary entries).kind
  | .sequence shape guise items =>
      if shape.isHashable then unhashableIn? items
      else some (Value.sequence shape guise items).kind
  | .node _ _ parts => unhashableIn? parts
  | _ => none

/-- The class of the first part of several values that has no hash code. -/
def unhashableIn? : List Value → Option Kind
  | [] => none
  | value :: rest => value.unhashable?.or (unhashableIn? rest)

end

/-- The first value of every class of the same ones, if all have hash codes. -/
def distinct (values : List Value) : Except SelectionError (List Value) :=
  match unhashableIn? values with
  | some kind => .error (.unhashable kind)
  | none => .ok (values.eraseDupsBy alike)

end Value

end Locus
