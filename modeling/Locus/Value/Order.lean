import Locus.Value.Basic

/-!
# Comparing values

Values of one class are equal when their parts are, positions by their points
alone. Numbers are equal when they measure the same, where truth values count
as zero and one; sequences of one shape when their items are, in whatever guise;
dictionaries when the same keys have equal values. An entity equals nothing but
itself, and the undefined number not even that. As parts of other values,
though, two undefined numbers are one and the same.

Numbers, texts, byte strings, positions, intervals, ranges and sequences of one
shape are ordered, the last by their first items that differ and then by length,
unless their class has no order. Sets of offsets are ordered by inclusion, which
leaves some pairs unrelated. Asking for the order of other values is an error.
It names the first two that have no order, from the side of the one that was
asked.
-/

namespace Locus

/-- Whether two handles agree, locations up to line and column. -/
def Handle.same : Handle → Handle → Bool
  | .fixed first, .fixed second => first ≈ second
  | .movable first, .movable second => first ≈ second
  | .hidden, .hidden => true
  | _, _ => false

/-- Whether two faults agree, intervals up to line and column. -/
def Fault.same (first second : Fault) : Bool :=
  first.message = second.message &&
    match first.interval, second.interval with
    | none, none => true
    | some firstInterval, some secondInterval => firstInterval ≈ secondInterval
    | _, _ => false

/-- The four order relations. -/
inductive Relation
  /-- Strictly before. -/
  | less
  /-- Before or equal. -/
  | atMost
  /-- Strictly after. -/
  | greater
  /-- After or equal. -/
  | atLeast
  deriving DecidableEq

namespace Relation

/-- The sign of the relation. -/
def symbol : Relation → String
  | .less => "<"
  | .atMost => "<="
  | .greater => ">"
  | .atLeast => ">="

/-- The relation seen from the other side. -/
def converse : Relation → Relation
  | .less => .greater
  | .atMost => .atLeast
  | .greater => .less
  | .atLeast => .atMost

/-- Whether the relation holds between values that compare as given. -/
def holds : Relation → Ordering → Bool
  | .less, ordering => ordering.isLT
  | .atMost, ordering => ordering.isLE
  | .greater, ordering => ordering.isGT
  | .atLeast, ordering => ordering.isGE

/-- Whether the relation holds between two sets, ordered by inclusion. -/
def holdsOfSets : Relation → OffsetSet → OffsetSet → Bool
  | .less, first, second => first ⊆ second && first ≠ second
  | .atMost, first, second => first ⊆ second
  | .greater, first, second => second ⊆ first && first ≠ second
  | .atLeast, first, second => second ⊆ first

end Relation

/-- Values of these classes have no order. -/
structure Incomparable where
  /-- The relation that was asked for. -/
  relation : Relation
  /-- Class of the left value. -/
  left : Kind
  /-- Class of the right value. -/
  right : Kind
  deriving DecidableEq

/-- What is said about values without an order. -/
def Incomparable.message (error : Incomparable) : String :=
  "'" ++ error.relation.symbol ++
    "' not supported between instances of '" ++ error.left.name ++
    "' and '" ++ error.right.name ++ "'"

namespace Value

/-- Which of two sides is asked when sequences of one shape are compared. A node
is asked before a plain sequence; otherwise the side stays the one that has been
asked so far, which is the second one after a turn. -/
def isTurned (turned : Bool) : Option Guise → Option Guise → Bool
  | none, some _ => true
  | some _, none => false
  | _, _ => turned

/-- What a value measures, if it is a number or a truth value. The undefined
number is a number, but measures nothing. -/
def measure? : Value → Option (Option Quantity)
  | .truth value => some (some (.rational (if value then 1 else 0)))
  | .number value => some (some (.rational value))
  | .real value => some value.quantity?
  | _ => none

/-- Both values are the undefined number. -/
def areUndefined : Value → Value → Bool
  | .real .undefined, .real .undefined => true
  | _, _ => false

mutual

/-- Whether two values are equal. -/
def same : Value → Value → Bool
  | .absent, .absent => true
  | .text first, .text second => first = second
  | .bytes first, .bytes second => first = second
  | .position first, .position second => first ≈ second
  | .interval first, .interval second => first ≈ second
  | .range first, .range second => first ≈ second
  | .fault first, .fault second => first.same second
  | .offsets first, .offsets second => first = second
  | .sequence shape _ items, .sequence otherShape _ otherItems =>
      shape = otherShape && sameItems items otherItems
  | .dictionary entries, .dictionary otherEntries =>
      entries.length = otherEntries.length && hasEntries otherEntries entries
  | .node kind handle parts, .node otherKind otherHandle otherParts =>
      kind = otherKind && handle.same otherHandle && sameItems parts otherParts
  | .entity _ _ (some mark), .entity _ _ (some otherMark) => mark = otherMark
  | first, second =>
      match first.measure?, second.measure? with
      | some measure, some otherMeasure =>
          Quantity.order? measure otherMeasure = some .eq
      | _, _ => false

/-- Whether two lists have the same items, one by one. -/
def sameItems : List Value → List Value → Bool
  | [], [] => true
  | first :: firstRest, second :: secondRest =>
      (first.areUndefined second || first.same second) &&
        sameItems firstRest secondRest
  | _, _ => false

/-- Whether all of the given entries are among those of a dictionary. -/
def hasEntries (dictionary : List (String × Value)) :
    List (String × Value) → Bool
  | [] => true
  | (key, value) :: rest =>
      match dictionary.lookup key with
      | some other =>
          (value.areUndefined other || value.same other) &&
            hasEntries dictionary rest
      | none => false

end

/-- Whether two values are the same as parts of others: equal, or both the
undefined number. -/
def alike (first second : Value) : Bool :=
  first.areUndefined second || first.same second

/-- The report that two values have no order, from the side that was asked. -/
def disorder (relation : Relation) (turned : Bool) (first second : Value) :
    Incomparable :=
  if turned then ⟨relation.converse, second.kind, first.kind⟩
  else ⟨relation, first.kind, second.kind⟩

mutual

/-- Whether a relation holds between two values, the second of which is asked
after a turn. -/
def relateAsked (relation : Relation) (turned : Bool) :
    Value → Value → Except Incomparable Bool
  | .text first, .text second => .ok (relation.holds (compare first second))
  | .bytes first, .bytes second => .ok (relation.holds (compare first second))
  | .position first, .position second =>
      .ok (relation.holds (compare first second))
  | .interval first, .interval second =>
      .ok (relation.holds (compare first second))
  | .range first, .range second =>
      .ok (relation.holds (compare first second))
  | .offsets first, .offsets second =>
      .ok (relation.holdsOfSets first second)
  | .sequence shape guise items, .sequence otherShape otherGuise otherItems =>
      if shape = otherShape ∧ shape.isOrdered then
        relateItems relation (isTurned turned guise otherGuise) items otherItems
      else
        .error <| disorder relation turned
          (.sequence shape guise items)
          (.sequence otherShape otherGuise otherItems)
  | first, second =>
      match first.measure?, second.measure? with
      | some measure, some otherMeasure =>
          .ok ((Quantity.order? measure otherMeasure).any relation.holds)
      | _, _ => .error (disorder relation turned first second)

/-- Whether a relation holds between two lists: the first items that differ
decide, and without any the lengths do. -/
def relateItems (relation : Relation) (turned : Bool) :
    List Value → List Value → Except Incomparable Bool
  | [], [] => .ok (relation.holds .eq)
  | [], _ :: _ => .ok (relation.holds .lt)
  | _ :: _, [] => .ok (relation.holds .gt)
  | first :: firstRest, second :: secondRest =>
      if first.alike second then
        relateItems relation turned firstRest secondRest
      else
        relateAsked relation turned first second

end

/-- Whether a relation holds between two values. -/
def relate (relation : Relation) (first second : Value) :
    Except Incomparable Bool :=
  relateAsked relation false first second

end Value

end Locus
