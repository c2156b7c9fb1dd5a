import Locus.Journal
import Locus.Rendering

/-!
# Faults of location bookkeeping

A fault says that locations were kept wrongly, for instance that a piece of
text is longer than the interval it was read from. It never blames the text
itself. Faults are reported to the journal.
-/

namespace Locus

/-- A failure of location bookkeeping. -/
structure Fault where
  /-- What went wrong. -/
  message : String
  /-- The interval concerned, if any. -/
  interval : Option Interval
  deriving DecidableEq

namespace Fault

/-- The fault as messages show it. -/
def render (fault : Fault) : String :=
  match fault.interval with
  | none => "internal error: " ++ fault.message
  | some interval =>
      "internal error: " ++ interval.render ++ ": " ++ fault.message

/-- The journal entry that reports a fault. -/
def entry (fault : Fault) : Journal.Entry where
  level := .error
  channel := "srcloc.spans"
  text := fault.render

end Fault

end Locus
