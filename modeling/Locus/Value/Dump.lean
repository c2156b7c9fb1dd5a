import Locus.Number.Shortest
import Locus.Text.Quoted
import Locus.Value.Basic

/-!
# Dumps of values

A dump shows a value with all its parts. Structured values are written as the
name of their class with the labelled parts in parentheses. Tuples stand in
parentheses, where a single item is followed by a comma, lists in brackets, and
dictionaries in braces, whether they are nodes or not. Sequences of other
classes are shown as made from the list of their items. An entity shows its
class alone.
-/

namespace Locus

namespace Dump

/-- A structured value: the name of its class and its labelled parts. -/
def record (name : String) (parts : List (String × String)) : String :=
  name ++ "(" ++
    ", ".intercalate (parts.map fun part => part.1 ++ "=" ++ part.2) ++ ")"

/-- Items of a tuple. -/
def tuple : List String → String
  | [item] => "(" ++ item ++ ",)"
  | items => "(" ++ ", ".intercalate items ++ ")"

/-- Items of a list. -/
def list (items : List String) : String :=
  "[" ++ ", ".intercalate items ++ "]"

/-- Keys of a dictionary with their values. -/
def dictionary (entries : List (String × String)) : String :=
  "\x7b" ++
    ", ".intercalate
      (entries.map fun entry => Text.quoted entry.1 ++ ": " ++ entry.2) ++
    "\x7d"

/-- Items of a sequence. -/
def sequence : Shape → List String → String
  | .tuple => tuple
  | .list => list
  | .series family => fun items =>
      family.kind.name ++ "(" ++ list items ++ ")"

/-- What stands for a missing value. -/
def absent : String := "None"

end Dump

/-- A position with all its parts. -/
def Position.dump (position : Position) : String :=
  Dump.record "Position"
    [("file", Text.quoted position.file),
      ("offset", toString position.offset),
      ("line", toString position.line),
      ("column", toString position.column)]

/-- An interval with all its parts. -/
def Interval.dump (interval : Interval) : String :=
  Dump.record "Interval"
    [("start", interval.start.dump), ("end", interval.stop.dump)]

/-- A range with all its parts. -/
def Range.dump (range : Range) : String :=
  Dump.record "Range"
    [("intervals", Dump.tuple (range.intervals.map Interval.dump))]

/-- A fault with all its parts. -/
def Fault.dump (fault : Fault) : String :=
  Dump.record "InternalError"
    [("message", Text.quoted fault.message),
      ("interval", (fault.interval.map Interval.dump).getD Dump.absent)]

/-- The members of a set of offsets in ascending order. -/
def OffsetSet.dump (offsets : OffsetSet) : String :=
  if offsets.toList = [] then "set()"
  else
    "\x7b" ++ ", ".intercalate (offsets.toList.map toString) ++ "\x7d"

/-- The location of a handle under its label, if it can be asked for. -/
def Handle.dump (handle : Handle) : List (String × String) :=
  match handle.range? with
  | none => []
  | some range => [("range", range.dump)]

namespace Value

mutual

/-- A value with all its parts. -/
def dump : Value → String
  | .absent => Dump.absent
  | .truth value => if value then "True" else "False"
  | .number value => toString value
  | .real value => value.render
  | .text value => Text.quoted value
  | .bytes value => Text.quotedBytes value
  | .position value => value.dump
  | .interval value => value.dump
  | .range value => value.dump
  | .fault value => value.dump
  | .offsets value => value.dump
  | .sequence shape _ items => Dump.sequence shape (dumpAll items)
  | .dictionary entries => Dump.dictionary (dumpEntries entries)
  | .node kind handle parts =>
      Dump.record kind.name (handle.dump ++ kind.labels.zip (dumpAll parts))
  | .entity kind _ _ => "<" ++ kind.path ++ " object>"

/-- Several values with all their parts. -/
def dumpAll : List Value → List String
  | [] => []
  | value :: rest => value.dump :: dumpAll rest

/-- The values of a dictionary with all their parts, under their keys. -/
def dumpEntries : List (String × Value) → List (String × String)
  | [] => []
  | (key, value) :: rest => (key, value.dump) :: dumpEntries rest

end

/-- A value as messages show it: locations and faults are rendered, text
stands as it is, and everything else is dumped. -/
def render : Value → String
  | .text value => value
  | .position value => value.render
  | .interval value => value.render
  | .range value => value.render
  | .fault value => value.render
  | value => value.dump

end Value

end Locus
