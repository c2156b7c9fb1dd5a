import Locus.Sorting.Search

/-!
# Runs

A run is a list in which no value precedes the one before it. The run at the
front of a list is taken as it stands. There every value may also precede the
one before it, and then the run is read from its end. Further values are placed
in a run one by one.
-/

namespace Locus
namespace Sorting

variable {α ε : Type}

/-- Place a value in a run, behind all values that it does not precede. -/
def place (precedes : α → α → Except ε Bool) (run : List α) (value : α) :
    Except ε (List α) := do
  let ahead ← bisect (fun other => return !(← precedes value other)) run
  return run.take ahead ++ value :: run.drop ahead

/-- Split off the values that continue a run behind the given last one. In a
falling run every value precedes the one before it, and in a rising run none
does. -/
def continueRun (precedes : α → α → Except ε Bool) (falling : Bool) (last : α) :
    List α → Except ε (List α × List α)
  | [] => .ok ([], [])
  | value :: rest => do
      if (← precedes value last) = falling then
        let (run, others) ← continueRun precedes falling value rest
        return (value :: run, others)
      else
        return ([], value :: rest)

/-- Split off the longest run at the front, in rising order. -/
def leadingRun (precedes : α → α → Except ε Bool) :
    List α → Except ε (List α × List α)
  | first :: second :: rest => do
      let falling ← precedes second first
      let (run, others) ← continueRun precedes falling second rest
      if falling then
        return ((first :: second :: run).reverse, others)
      else
        return (first :: second :: run, others)
  | single => .ok (single, [])

/-- Split off a run at the front that has at least the given number of values,
as far as there are so many. -/
def frontRun (precedes : α → α → Except ε Bool) (least : Nat) (values : List α) :
    Except ε (List α × List α) := do
  let (run, others) ← leadingRun precedes values
  let missing := least - run.length
  let run ← (others.take missing).foldlM (place precedes) run
  return (run, others.drop missing)

end Sorting
end Locus
