import Locus.Sorting.Merge
import Locus.Sorting.Run

/-!
# Adaptive sorting

A list is sorted by splitting it into runs and merging neighbouring runs, so
that what stands in order already is used. The comparison may have no answer for
some values, and then the first question without an answer ends the sorting.
What is asked matters for that, and also when the order is partial. Values of
which neither precedes the other keep their order.
-/

namespace Locus
namespace Sorting

variable {α ε : Type}

/-- A run that waits to be merged. -/
structure Waiting (α : Type) where
  /-- How many values stand before it. -/
  start : Nat
  /-- Its values. -/
  items : List α
  /-- How deep the border to the next run lies. -/
  depth : Nat

/-- The least length of runs. Short lists are a single run, and of long ones the
number of runs is at most a power of two. -/
def leastRun (total : Nat) : Nat :=
  let parts := 1 <<< (total.log2 - 5)
  (total + parts - 1) / parts

/-- How deep the border between two neighbouring runs lies: how often the whole
must be halved, its halves be halved and so on, until the middles of the runs
are in different parts. -/
def borderDepth (total start first second : Nat) : Nat :=
  let middle := 2 * start + first
  let next := middle + first + second
  let apart (halvings : Nat) : Bool :=
    (middle <<< halvings) / (2 * total) ≠ (next <<< halvings) / (2 * total)
  ((List.range (total.log2 + 2)).find? apart).getD 0

/-- Merge the last waiting run with those before it as long as the borders
between them are deeper than its border to the next run. -/
def mergeDeeper (precedes : α → α → Except ε Bool) (depth patience : Nat)
    (last : Waiting α) :
    List (Waiting α) → Except ε (List (Waiting α) × Nat)
  | [] => .ok ([⟨last.start, last.items, depth⟩], patience)
  | before :: rest => do
      if depth < before.depth then
        let (items, patience) ← merge precedes patience before.items last.items
        mergeDeeper precedes depth patience
          ⟨before.start, items, before.depth⟩ rest
      else
        return (⟨last.start, last.items, depth⟩ :: before :: rest, patience)

/-- Let a run wait behind the others, after merging those that have to be. -/
def await (precedes : α → α → Except ε Bool) (total start patience : Nat)
    (items : List α) (waiting : List (Waiting α)) :
    Except ε (List (Waiting α) × Nat) :=
  match waiting with
  | [] => .ok ([⟨start, items, 0⟩], patience)
  | last :: rest => do
      let depth := borderDepth total last.start last.items.length items.length
      let (waiting, patience) ← mergeDeeper precedes depth patience last rest
      return (⟨start, items, 0⟩ :: waiting, patience)

/-- Merge all waiting runs from the end. Of the last three runs, the first two
are merged first if the first of them is shorter than the last. -/
def mergeWaiting (precedes : α → α → Except ε Bool) (patience : Nat)
    (waiting : List (Waiting α)) : Except ε (List α) :=
  match waiting with
  | [] => .ok []
  | [last] => .ok last.items
  | [last, second] => do
      let (items, _) ← merge precedes patience second.items last.items
      return items
  | last :: second :: third :: rest => do
      if third.items.length < last.items.length then
        let (items, patience) ← merge precedes patience third.items second.items
        mergeWaiting precedes patience
          (last :: ⟨third.start, items, third.depth⟩ :: rest)
      else
        let (items, patience) ← merge precedes patience second.items last.items
        mergeWaiting precedes patience
          (⟨second.start, items, second.depth⟩ :: third :: rest)
termination_by waiting.length

/-- Split the rest of the values into runs and merge all runs. Every turn takes a
run, so there are no more turns than values. -/
def sortRest (precedes : α → α → Except ε Bool) (total turns start patience : Nat)
    (waiting : List (Waiting α)) (values : List α) : Except ε (List α) :=
  match turns, values with
  | turns + 1, value :: rest => do
      let (items, others) ← frontRun precedes (leastRun total) (value :: rest)
      let (waiting, patience) ←
        await precedes total start patience items waiting
      sortRest precedes total turns (start + items.length) patience waiting
        others
  | _, _ => do
      let sorted ← mergeWaiting precedes patience waiting
      return sorted ++ values

/-- Sort the values in rising order. -/
def sort (precedes : α → α → Except ε Bool) (values : List α) :
    Except ε (List α) :=
  sortRest precedes values.length values.length 0 payoff [] values

end Sorting
end Locus
