/-!
# Searching a run

A run is searched for the place where a property ends that holds at one of its
ends. Whether it holds of a value is a question that may have no answer, and
the first one without an answer ends the search. Which values are asked about
is therefore fixed: either the middle one, and then the middle one of the half
that is left, or values at growing distances from the end until the property
does not hold.
-/

namespace Locus
namespace Sorting

variable {α ε : Type}

/-- An end of a run. A run that is read from its back is listed in reverse. -/
inductive End
  /-- Where the least value stands. -/
  | front
  /-- Where the greatest value stands. -/
  | back
  deriving DecidableEq

/-- How many values at the front of a run have the property. -/
def bisect (holds : α → Except ε Bool) (values : List α) : Except ε Nat :=
  match split : values.drop (values.length / 2) with
  | [] => .ok 0
  | middle :: rest => do
      if ← holds middle then
        return values.length / 2 + 1 + (← bisect holds rest)
      else
        bisect holds (values.take (values.length / 2))
termination_by values.length
decreasing_by
  all_goals
    have parts := congrArg List.length split
    simp only [List.length_drop, List.length_cons, List.length_take] at parts ⊢
    omega

/-- How many values at the given end of a run have the property. The middle of
an even number of values is the one farther from the front, whichever end is
given. -/
def End.bisect (near : End) (holds : α → Except ε Bool) (values : List α) :
    Except ε Nat :=
  match near with
  | .front => Sorting.bisect holds values
  | .back => do
      let others ← Sorting.bisect (fun value => return !(← holds value))
        values.reverse
      return values.length - others

/-- How many values at the given end of a run have the property, asking about
the value behind a stretch of the given width, and then behind stretches of
more than twice the width before. -/
def End.stride (near : End) (holds : α → Except ε Bool) (width : Nat)
    (values : List α) : Except ε Nat :=
  match split : values.drop width with
  | [] => near.bisect holds values
  | asked :: rest => do
      if ← holds asked then
        return width + 1 + (← near.stride holds (2 * width + 1) rest)
      else
        near.bisect holds (values.take width)
termination_by values.length
decreasing_by
  have parts := congrArg List.length split
  simp only [List.length_drop, List.length_cons] at parts
  omega

/-- How many values at the given end of a run have the property, where few are
expected. -/
def End.gallop (near : End) (holds : α → Except ε Bool) :
    List α → Except ε Nat
  | [] => .ok 0
  | asked :: rest => do
      if ← holds asked then
        return 1 + (← near.stride holds 0 rest)
      else
        return 0

end Sorting
end Locus
