import Locus.Sorting.Search

/-!
# Merging runs

Two neighbouring runs are merged from one end. At first their next values are
compared one by one. When one of the runs wins several times in a row, both are
searched for stretches that can be taken at once, until that does not pay any
more. How often a run must win in a row is the patience of the merge, which
learns from the stretches that were found.
-/

namespace Locus
namespace Sorting

variable {α ε : Type}

/-- A stretch of this length pays. It is also the patience in the beginning. -/
def payoff : Nat := 7

/-- Two runs that are being merged, both listed from the same end, with the
values merged so far. -/
structure Contest (α : Type) where
  /-- The merged values, the latest first. -/
  merged : List α
  /-- The run that wins ties. -/
  holder : List α
  /-- The other run. -/
  rival : List α

namespace Contest

/-- Nothing is left to be asked. The last value of the holder is known to come
behind the whole rival. -/
def isSettled (contest : Contest α) : Bool :=
  match contest.holder, contest.rival with
  | _ :: _ :: _, _ :: _ => false
  | _, _ => true

/-- All values in the order of the merge. -/
def toList (contest : Contest α) : List α :=
  contest.merged.reverse ++ contest.rival ++ contest.holder

/-- Merge some values of the holder. -/
def takeHolder (contest : Contest α) (count : Nat) : Contest α where
  merged := (contest.holder.take count).reverse ++ contest.merged
  holder := contest.holder.drop count
  rival := contest.rival

/-- Merge some values of the rival. -/
def takeRival (contest : Contest α) (count : Nat) : Contest α where
  merged := (contest.rival.take count).reverse ++ contest.merged
  holder := contest.holder
  rival := contest.rival.drop count

end Contest

/-- Whether a value of the rival is merged before one of the holder, when the
runs are read from the given end. -/
def End.overtakes (near : End) (precedes : α → α → Except ε Bool)
    (rival holder : α) : Except ε Bool :=
  match near with
  | .front => precedes rival holder
  | .back => precedes holder rival

namespace Contest

/-- Merge the values of the holder that the rival does not overtake, and then
the next one of the rival. The result comes with their number. -/
def chargeHolder (near : End) (precedes : α → α → Except ε Bool)
    (contest : Contest α) : Except ε (Contest α × Nat) :=
  match contest.rival with
  | [] => .ok (contest, 0)
  | next :: _ => do
      let count ← near.gallop
        (fun value => return !(← near.overtakes precedes next value))
        contest.holder
      let contest := contest.takeHolder count
      return (if contest.isSettled then contest else contest.takeRival 1, count)

/-- Merge the values of the rival that overtake the holder, and then the next
one of the holder. The result comes with their number. -/
def chargeRival (near : End) (precedes : α → α → Except ε Bool)
    (contest : Contest α) : Except ε (Contest α × Nat) :=
  match contest.holder with
  | [] => .ok (contest, 0)
  | next :: _ => do
      let count ← near.gallop
        (fun value => near.overtakes precedes value next) contest.rival
      let contest := contest.takeRival count
      return (if contest.isSettled then contest else contest.takeHolder 1, count)

/-- Merge a stretch of the run that is searched first. -/
def chargeFirst : End → (α → α → Except ε Bool) → Contest α →
    Except ε (Contest α × Nat)
  | .front => chargeHolder .front
  | .back => chargeRival .back

/-- Merge a stretch of the run that is searched second. -/
def chargeSecond : End → (α → α → Except ε Bool) → Contest α →
    Except ε (Contest α × Nat)
  | .front => chargeRival .front
  | .back => chargeHolder .back

/-- Merge a stretch of both runs. The result comes with whether that paid. -/
def charge (near : End) (precedes : α → α → Except ε Bool)
    (contest : Contest α) : Except ε (Contest α × Bool) := do
  let (contest, first) ← contest.chargeFirst near precedes
  if contest.isSettled then
    return (contest, true)
  else
    let (contest, second) ← contest.chargeSecond near precedes
    return (contest, payoff ≤ first || payoff ≤ second)

/-- Merge the next value of either run. The result comes with whether it was one
of the rival. -/
def duel (near : End) (precedes : α → α → Except ε Bool)
    (contest : Contest α) : Except ε (Contest α × Bool) :=
  match contest.holder, contest.rival with
  | holder :: _, rival :: _ => do
      if ← near.overtakes precedes rival holder then
        return (contest.takeRival 1, true)
      else
        return (contest.takeHolder 1, false)
  | _, _ => .ok (contest, false)

/-- How the next values are merged. -/
inductive Phase
  /-- One by one, after a row of wins of the rival or of the holder. -/
  | duel (rival : Bool) (row : Nat)
  /-- By stretches, again or for the first time. -/
  | charge (again : Bool)

/-- The phase after a further win: a row that tries the patience ends the
duel. -/
def Phase.afterWin (patience : Nat) (rival : Bool) (row : Nat) (won : Bool) :
    Phase :=
  let row := if won = rival then row + 1 else 1
  if patience ≤ row then .charge false else .duel won row

/-- Merge until nothing is left to be asked. The result comes with the patience
that has been learnt. Every turn merges a value, so there are no more turns than
values. -/
def run (near : End) (precedes : α → α → Except ε Bool) (turns : Nat)
    (phase : Phase) (patience : Nat) (contest : Contest α) :
    Except ε (List α × Nat) :=
  match turns with
  | 0 => .ok (contest.toList, patience)
  | turns + 1 =>
      if contest.isSettled then
        .ok (contest.toList, patience)
      else
        match phase with
        | .duel rival row => do
            let (contest, won) ← contest.duel near precedes
            contest.run near precedes turns
              (Phase.afterWin patience rival row won) patience
        | .charge again => do
            let patience := if again then max 1 (patience - 1) else patience
            let (contest, paid) ← contest.charge near precedes
            if contest.isSettled || paid then
              contest.run near precedes turns (.charge true) patience
            else
              contest.run near precedes turns (.duel true 0) (patience + 1)

end Contest

/-- Merge two runs from the end of the shorter one. The next value of the other
run is known to come first from there. -/
def mergeUneven (precedes : α → α → Except ε Bool) (patience : Nat)
    (first second : List α) : Except ε (List α × Nat) :=
  let turns := first.length + second.length
  if first.length ≤ second.length then
    (Contest.takeRival ⟨[], first, second⟩ 1).run .front precedes turns
      (.duel true 0) patience
  else do
    let contest : Contest α := ⟨[], second.reverse, first.reverse⟩
    let (reversed, patience) ← (contest.takeRival 1).run .back precedes turns
      (.duel true 0) patience
    return (reversed.reverse, patience)

/-- Merge two neighbouring runs. The values that stand right already are found
first: those of the first run that no value of the second precedes, and those of
the second that precede none of the first. -/
def merge (precedes : α → α → Except ε Bool) (patience : Nat)
    (first second : List α) : Except ε (List α × Nat) :=
  match second with
  | [] => .ok (first, patience)
  | next :: _ => do
      let ahead ← End.front.gallop
        (fun value => return !(← precedes next value)) first
      match (first.drop ahead).getLast? with
      | none => return (first ++ second, patience)
      | some last =>
          let behind ← End.back.gallop
            (fun value => return !(← precedes value last)) second.reverse
          let kept := second.length - behind
          let (merged, patience) ← mergeUneven precedes patience
            (first.drop ahead) (second.take kept)
          return (first.take ahead ++ merged ++ second.drop kept, patience)

end Sorting
end Locus
