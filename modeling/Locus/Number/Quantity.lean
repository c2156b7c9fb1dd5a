/-!
# Quantities

What a number measures, in whatever format it is written. Rational numbers are
kept exactly, so that comparing numbers of different formats loses nothing.
Formats with a limited span have two further quantities, one below and one
above all rational numbers. They also have numbers that measure nothing, and
those do not compare.
-/

namespace Locus

/-- What a number measures. -/
inductive Quantity
  /-- Below all rational numbers. -/
  | lowest
  /-- A rational number. -/
  | rational (value : Rat)
  /-- Above all rational numbers. -/
  | highest
  deriving DecidableEq

namespace Quantity

/-- Which of two quantities is the smaller one. -/
def order : Quantity → Quantity → Ordering
  | .rational first, .rational second => compareOfLessAndEq first second
  | .lowest, .lowest => .eq
  | .highest, .highest => .eq
  | .lowest, _ => .lt
  | _, .highest => .lt
  | _, .lowest => .gt
  | .highest, _ => .gt

instance : Ord Quantity := ⟨order⟩

/-- Two rational quantities are ordered like the numbers. -/
theorem compare_rational (first second : Rat) :
    compare (rational first) (rational second) =
      compareOfLessAndEq first second := rfl

/-- How two numbers compare, given what they measure. Without two quantities
there is nothing to compare. -/
def order? : Option Quantity → Option Quantity → Option Ordering
  | some first, some second => some (compare first second)
  | _, _ => none

end Quantity

end Locus
