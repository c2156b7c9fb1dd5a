import Locus.Range.Basic

/-!
# Locations in messages

A position is written as its line and column behind the name of its text, and
an interval as its two ends. The name is left out when it is empty, and the
line of the stop when it is the line of the start. A range is written as its
outer bound, and the empty range as nothing.
-/

namespace Locus

namespace Position

/-- The name of the text with a colon after it, if there is a name. -/
def renderFile (position : Position) : String :=
  if position.file = "" then "" else position.file ++ ":"

/-- Line and column alone. -/
def renderPlace (position : Position) : String :=
  toString position.line ++ "," ++ toString position.column

/-- The position as messages show it. -/
def render (position : Position) : String :=
  position.renderFile ++ position.renderPlace

end Position

namespace Interval

/-- Where the interval stops: the column alone when it stops on the line it
starts on. -/
def renderStop (interval : Interval) : String :=
  if interval.start.line = interval.stop.line then
    toString interval.stop.column
  else
    interval.stop.renderPlace

/-- The interval as messages show it. -/
def render (interval : Interval) : String :=
  interval.start.render ++ "-" ++ interval.renderStop

end Interval

namespace Range

/-- The range as messages show it. -/
def render (range : Range) : String :=
  match range.outer? with
  | none => ""
  | some interval => interval.render

@[simp] theorem render_empty : (∅ : Range).render = "" := rfl

@[simp] theorem render_toRange (interval : Interval) :
    interval.toRange.render = interval.render := rfl

end Range

end Locus
