import Locus.Range.Normal

/-!
# Sample locations

Sample locations lie in one text whose lines all have ten columns, the newline
included. They are made from drawn offsets, and a draw outside its bounds is
refused. All that is made is valid, and every range is in normal form.
-/

namespace Locus
namespace Sample

/-- Name of the sample text. -/
def file : String := "file name"

/-- Number of columns on every line of the sample text. -/
def lineWidth : Int := 10

/-- The position at an offset of the sample text. -/
def positionAt (offset : Int) : Position where
  file := file
  offset := offset
  line := (offset - 1) / lineWidth + 1
  column := (offset - 1) % lineWidth + 1

/-- A draw outside its bounds. -/
inductive DrawError
  /-- An offset that is not between one and the limit. -/
  | offset (limit draw : Int)
  /-- More intervals than the limit. -/
  | size (limit : Int) (count : Nat)
  deriving DecidableEq

/-- What is said about the draw. -/
def DrawError.message : DrawError → String
  | .offset limit draw =>
      "integers(1, " ++ toString limit ++ "): " ++ toString draw
  | .size limit count =>
      "lists(" ++ toString limit ++ "): " ++ toString count

/-- The greatest offset that is drawn unless another limit is given. -/
def defaultOffsetLimit : Int := 1000

/-- The greatest number of intervals unless another limit is given. -/
def defaultSizeLimit : Int := 8

/-- The position at a drawn offset. -/
def position (limit draw : Int) : Except DrawError Position :=
  if 1 ≤ draw ∧ draw ≤ limit then
    .ok (positionAt draw)
  else
    .error (.offset limit draw)

/-- The interval between two drawn offsets in either order. -/
def interval (limit : Int) (draw : Int × Int) :
    Except DrawError Interval := do
  let first ← position limit draw.1
  let second ← position limit draw.2
  return Interval.spanning first second

/-- The range of the intervals between drawn pairs of offsets. -/
def range (limit sizeLimit : Int) (draws : List (Int × Int)) :
    Except DrawError Range :=
  if sizeLimit < draws.length then
    .error (.size sizeLimit draws.length)
  else do
    let intervals ← draws.mapM (interval limit)
    return Range.ofIntervals intervals

/-- Positions from the first offset on are valid. -/
theorem valid_positionAt
    {offset : Int}
    (positive : 1 ≤ offset) :
    (positionAt offset).Valid := by
  simp only [positionAt, lineWidth, Position.Valid]
  omega

end Sample
end Locus
