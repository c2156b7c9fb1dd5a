import Locus.Fault
import Locus.Position.Advance

/-!
# Reading an interval piece by piece

The text of an interval is read from its start. A piece that fits splits the
interval into what the piece covers and what is left. A piece that is longer
than the interval is an overrun: it is reported to the journal once, and
reading ends.
-/

namespace Locus

/-- A piece of text does not fit into the interval it is read from. -/
structure Overrun where
  /-- Number of characters of the piece. -/
  size : Nat
  /-- What was left of the interval. -/
  interval : Interval
  deriving DecidableEq

namespace Overrun

/-- What is said about an overrun. -/
def message (overrun : Overrun) : String :=
  "string of length " ++ toString overrun.size ++
    " does not fit in interval of length " ++ toString overrun.interval.length

/-- An overrun is a fault of the interval it happened in. -/
def fault (overrun : Overrun) : Fault where
  message := overrun.message
  interval := some overrun.interval

end Overrun

/-- Computations that may end in an overrun and that write a journal. -/
abbrev Reading : Type → Type :=
  ExceptT Overrun (StateM (List Journal.Entry))

namespace Reading

/-- Carry out a computation on an empty journal. -/
def run {α : Type} (reading : Reading α) :
    Except Overrun α × List Journal.Entry :=
  (ExceptT.run reading).run []

/-- Report an overrun and end with it. -/
def overrun {α : Type} (overrun : Overrun) : Reading α := do
  modify (· ++ [overrun.fault.entry])
  throw overrun

end Reading

namespace Interval

/-- Make sure that a text fits into the interval. -/
def require (interval : Interval) (text : String) : Reading Unit :=
  if interval.length < text.length then
    Reading.overrun ⟨text.length, interval⟩
  else
    pure ()

/-- The part of the interval that a text covers, read from the start. -/
def take (interval : Interval) (text : String) : Reading Interval := do
  interval.require text
  return ⟨interval.start, interval.start.advanceBy text⟩

/-- What is left of the interval once a text has been read from the start. -/
def drop (interval : Interval) (text : String) : Reading Interval := do
  interval.require text
  return ⟨interval.start.advanceBy text, interval.stop⟩

/-- Read several texts in turn. Each answers the part it covers and what is
left after it. -/
def pieces (interval : Interval) :
    List String → Reading (List (Interval × Interval))
  | [] => return []
  | text :: rest => do
      let covered ← interval.take text
      let left ← interval.drop text
      let further ← left.pieces rest
      return (covered, left) :: further

@[simp] theorem run_take (interval : Interval) (text : String) :
    (interval.take text).run =
      if interval.length < text.length then
        (.error ⟨text.length, interval⟩,
          [(Overrun.mk text.length interval).fault.entry])
      else
        (.ok ⟨interval.start, interval.start.advanceBy text⟩, []) := by
  unfold take require
  split <;> rfl

@[simp] theorem run_drop (interval : Interval) (text : String) :
    (interval.drop text).run =
      if interval.length < text.length then
        (.error ⟨text.length, interval⟩,
          [(Overrun.mk text.length interval).fault.entry])
      else
        (.ok ⟨interval.start.advanceBy text, interval.stop⟩, []) := by
  unfold drop require
  split <;> rfl

end Interval

end Locus
