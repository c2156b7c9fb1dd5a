import Locus.Number.Quantity

/-!
# Binary numbers of 64 bits

The numbers of the usual binary format: a sign and a magnitude that has at most
53 binary digits, the last of them not below the place `-1074`. Zero has both
signs. Magnitudes of more than 1024 digits before the point are infinite. One
member of the format is undefined and measures nothing. A decimal is read as
the nearest number, and halfway between two as the one whose last binary digit
is even.
-/

namespace Locus

/-- The whole number nearest to a number; a half goes to the even neighbour. -/
def roundHalfEven (value : Rat) : Int :=
  let excess := value - value.floor
  if excess < 1 / 2 ∨ excess = 1 / 2 ∧ value.floor % 2 = 0 then
    value.floor
  else
    value.floor + 1

/-- The place of the leading digit of a positive number: the exponent of the
greatest power of the base that is not above the number. Numerator and
denominator bound it up to one place. -/
def leadingPlace (base : Nat) (value : Rat) : Int :=
  let above : Int :=
    (Nat.toDigits base value.num.toNat).length -
      (Nat.toDigits base value.den).length
  if value < (base : Rat) ^ above then above - 1 else above

/-- A number of the binary format with 64 bits. -/
inductive Binary64
  /-- A number with a sign and a magnitude that the format has. -/
  | finite (negative : Bool) (magnitude : Rat)
  /-- A number beyond all others of its sign. -/
  | infinite (negative : Bool)
  /-- Not a number. -/
  | undefined
  deriving DecidableEq

namespace Binary64

/-- What the number measures, if it is defined; zero does so with both signs. -/
def quantity? : Binary64 → Option Quantity
  | .finite false magnitude => some (.rational magnitude)
  | .finite true magnitude => some (.rational (-magnitude))
  | .infinite false => some .highest
  | .infinite true => some .lowest
  | .undefined => none

/-- The last binary place of numbers with the given magnitude. -/
def lastPlace (magnitude : Rat) : Int :=
  max (-1074) (leadingPlace 2 magnitude - 52)

/-- The number of the given sign nearest to a magnitude. -/
def nearest (negative : Bool) (magnitude : Rat) : Binary64 :=
  let unit : Rat := 2 ^ lastPlace magnitude
  let rounded : Rat := roundHalfEven (magnitude / unit) * unit
  if rounded < 2 ^ (1024 : Int) then
    .finite negative rounded
  else
    .infinite negative

/-- The number nearest to a coefficient at a decimal place. Places far outside
the format are decided without their powers of ten. -/
def ofDecimal (negative : Bool) (coefficient : Nat) (place : Int) : Binary64 :=
  if coefficient = 0 ∨ place + (Nat.toDigits 10 coefficient).length < -400 then
    .finite negative 0
  else if 400 < place then
    .infinite negative
  else
    nearest negative (coefficient * 10 ^ place)

end Binary64

end Locus
