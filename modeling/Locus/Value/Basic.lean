import Locus.Fault
import Locus.Number.Binary64
import Locus.Offsets

/-!
# Values

The values of a syntax tree and of the programs that handle it: scalars,
locations, sequences of values, dictionaries, and nodes. Tuples and lists are
the usual sequences, and there are further classes of them; texts and strings of
bytes are none. A node belongs to a class and exposes its own location through a
handle. There are three sorts of nodes. One is known by its parts, one is a
sequence at the same time and known by its items, and an entity is known by
nothing but its identity.
-/

namespace Locus

/-- The class of a value. -/
structure Kind where
  /-- Where the class is defined; empty for classes that are built in. -/
  home : String
  /-- What the class is called. -/
  name : String
  /-- Names of the parts that a node of the class has besides its location. -/
  labels : List String := []
  deriving DecidableEq

namespace Kind

/-- A class that is built in. -/
def builtin (name : String) : Kind where
  home := ""
  name := name

/-- The name of the class behind the place of its definition. -/
def path (kind : Kind) : String :=
  if kind.home = "" then kind.name else kind.home ++ "." ++ kind.name

/-- The class as error messages show it. -/
def render (kind : Kind) : String :=
  "<class '" ++ kind.path ++ "'>"

end Kind

/-- How a node exposes its location. -/
inductive Handle
  /-- The location can be asked for. -/
  | fixed (range : Range)
  /-- The location can be asked for and replaced. -/
  | movable (range : Range)
  /-- The location cannot be asked for. -/
  | hidden
  deriving DecidableEq

namespace Handle

/-- The location, if it can be asked for. -/
def range? : Handle → Option Range
  | .fixed range => some range
  | .movable range => some range
  | .hidden => none

/-- The location can be asked for and replaced. -/
def isMovable : Handle → Bool
  | .movable _ => true
  | _ => false

end Handle

/-- A family of sequences that are neither tuples nor lists, such as queues,
progressions or buffers. They are known by their items. -/
structure Family where
  /-- The class of the sequences. -/
  kind : Kind
  /-- Two of the sequences have an order. -/
  isOrdered : Bool
  /-- The sequences have hash codes if their items have. -/
  isHashable : Bool
  deriving DecidableEq

/-- Progressions of whole numbers. -/
def Family.progression : Family where
  kind := .builtin "range"
  isOrdered := false
  isHashable := true

/-- The shapes of sequences. -/
inductive Shape
  /-- A fixed number of items. -/
  | tuple
  /-- Any number of items. -/
  | list
  /-- Items arranged as in a family of sequences. -/
  | series (family : Family)
  deriving DecidableEq

namespace Shape

/-- The class of plain sequences of a shape. -/
def kind : Shape → Kind
  | .tuple => .builtin "tuple"
  | .list => .builtin "list"
  | .series family => family.kind

/-- Two sequences of the shape have an order. -/
def isOrdered : Shape → Bool
  | .tuple => true
  | .list => true
  | .series family => family.isOrdered

/-- Sequences of the shape have hash codes if their items have. -/
def isHashable : Shape → Bool
  | .tuple => true
  | .list => false
  | .series family => family.isHashable

end Shape

/-- What makes a node of a sequence: a class derived from the plain one, and a
location of its own. -/
structure Guise where
  /-- The derived class. -/
  kind : Kind
  /-- How the sequence exposes its own location. -/
  handle : Handle
  deriving DecidableEq

/-- A value that may have a location. -/
inductive Value
  /-- No value. -/
  | absent
  /-- A truth value. -/
  | truth (value : Bool)
  /-- A whole number. -/
  | number (value : Int)
  /-- A binary number. -/
  | real (value : Binary64)
  /-- A text. -/
  | text (value : String)
  /-- A string of bytes. -/
  | bytes (value : List UInt8)
  /-- A position. -/
  | position (value : Position)
  /-- An interval. -/
  | interval (value : Interval)
  /-- A range. -/
  | range (value : Range)
  /-- A fault. -/
  | fault (value : Fault)
  /-- A set of offsets. -/
  | offsets (value : OffsetSet)
  /-- A sequence of values, plain or in the guise of a node. -/
  | sequence (shape : Shape) (guise : Option Guise) (items : List Value)
  /-- A dictionary: values under different keys, in the order of insertion. -/
  | dictionary (entries : List (String × Value))
  /-- A node of a class, with its location and its further parts. -/
  | node (kind : Kind) (handle : Handle) (parts : List Value)
  /-- A node that only its mark tells from other nodes. One without a mark is
  new and different from all others. -/
  | entity (kind : Kind) (handle : Handle) (mark : Option Nat)

namespace Value

/-- A plain tuple of values. -/
@[match_pattern] abbrev tuple (items : List Value) : Value :=
  .sequence .tuple none items

/-- A plain list of values. -/
@[match_pattern] abbrev list (items : List Value) : Value :=
  .sequence .list none items

/-- A plain sequence of values that is neither a tuple nor a list. -/
@[match_pattern] abbrev series (family : Family) (items : List Value) : Value :=
  .sequence (.series family) none items

/-- The progression of the whole numbers from zero to below a bound. -/
def progression (bound : Nat) : Value :=
  .series .progression <|
    (List.range bound).map fun number : Nat => .number number

/-- The class of a value. -/
def kind : Value → Kind
  | .absent => .builtin "NoneType"
  | .truth _ => .builtin "bool"
  | .number _ => .builtin "int"
  | .real _ => .builtin "float"
  | .text _ => .builtin "str"
  | .bytes _ => .builtin "bytes"
  | .position _ => ⟨"srcloc.spans", "Position", []⟩
  | .interval _ => ⟨"srcloc.spans", "Interval", []⟩
  | .range _ => ⟨"srcloc.spans", "Range", []⟩
  | .fault _ => ⟨"srcloc.errors", "InternalError", []⟩
  | .offsets _ => .builtin "set"
  | .sequence shape none _ => shape.kind
  | .sequence _ (some guise) _ => guise.kind
  | .dictionary _ => .builtin "dict"
  | .node kind _ _ => kind
  | .entity kind _ _ => kind

/-- The class of nodes that hold a location and nothing else. -/
def rangedKind : Kind where
  home := "srcloc.ranges"
  name := "Ranged"

/-- A node that holds a location and nothing else. -/
def ranged (range : Range) : Value :=
  .node rangedKind (.movable range) []

/-- How the value exposes a location of its own, if it is a node. -/
def handle? : Value → Option Handle
  | .sequence _ guise _ => guise.map Guise.handle
  | .node _ handle _ => some handle
  | .entity _ handle _ => some handle
  | _ => none

/-- The value is a node that can be asked for its location. -/
def isLocated (value : Value) : Bool :=
  (value.handle?.bind Handle.range?).isSome

/-- The value is a node whose location can be asked for and replaced. -/
def isMovable (value : Value) : Bool :=
  value.handle?.any Handle.isMovable

end Value

end Locus
