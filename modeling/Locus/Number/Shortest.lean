import Locus.Number.Binary64

/-!
# Shortest decimals

A binary number is written with the fewest decimal digits that read back as the
same number. Of two such decimals with equally many digits the nearer one is
taken, and of two equally near ones the one whose last digit is even. Numbers
from `0.0001` up to sixteen digits before the point are written in full, with
at least one digit behind the point, and all others with an exponent of at
least two digits.
-/

namespace Locus

/-- A decimal: a coefficient that counts units of a decimal place. -/
structure Decimal where
  /-- How many units there are. -/
  coefficient : Nat
  /-- The place of the unit. -/
  place : Int

namespace Decimal

/-- What the decimal measures. -/
def value (decimal : Decimal) : Rat :=
  decimal.coefficient * 10 ^ decimal.place

/-- The two decimals of a place around a number, the nearer first. -/
def around (value : Rat) (place : Int) : List Decimal :=
  let units := value / 10 ^ place
  let near := roundHalfEven units
  [⟨near.toNat, place⟩, ⟨(2 * units.floor + 1 - near).toNat, place⟩]

/-- The decimal reads back as the number of the given magnitude. -/
def ReadsBack (magnitude : Rat) (decimal : Decimal) : Prop :=
  Binary64.nearest false decimal.value = .finite false magnitude

instance (magnitude : Rat) (decimal : Decimal) :
    Decidable (ReadsBack magnitude decimal) :=
  inferInstanceAs (Decidable (_ = _))

/-- The shortest decimal for a positive magnitude. Seventeen digits always
suffice, so the search finds one for every number of the format. -/
def shortest (magnitude : Rat) : Decimal :=
  let lead := leadingPlace 10 magnitude
  let candidates := (List.range 17).flatMap fun (further : Nat) =>
    around magnitude (lead - further)
  (candidates.find? fun decimal => ReadsBack magnitude decimal).getD ⟨0, 0⟩

/-- All digits of the coefficient. -/
def digits (decimal : Decimal) : List Char :=
  Nat.toDigits 10 decimal.coefficient

/-- The digits up to the last that is not zero. -/
def significant (decimal : Decimal) : List Char :=
  (decimal.digits.reverse.dropWhile (· = '0')).reverse

/-- The place of the first digit. -/
def lead (decimal : Decimal) : Int :=
  decimal.place + decimal.digits.length - 1

/-- The digits before and behind the point, the latter at least one. -/
def pointed (whole fraction : List Char) : List Char :=
  whole ++ '.' :: (if fraction = [] then ['0'] else fraction)

/-- The decimal in full. -/
def renderFull (decimal : Decimal) : List Char :=
  if decimal.lead < 0 then
    pointed ['0']
      (List.replicate (-1 - decimal.lead).toNat '0' ++ decimal.significant)
  else
    let width := (decimal.lead + 1).toNat
    pointed ((decimal.significant.take width).rightpad width '0')
      (decimal.significant.drop width)

/-- The decimal with an exponent. -/
def renderScaled (decimal : Decimal) : List Char :=
  let front :=
    match decimal.significant with
    | first :: second :: rest => first :: '.' :: second :: rest
    | single => single
  let sign := if decimal.lead < 0 then '-' else '+'
  front ++ 'e' :: sign ::
    (Nat.toDigits 10 decimal.lead.natAbs).leftpad 2 '0'

/-- The decimal as text. -/
def render (decimal : Decimal) : List Char :=
  if -4 ≤ decimal.lead ∧ decimal.lead < 16 then
    decimal.renderFull
  else
    decimal.renderScaled

end Decimal

namespace Binary64

/-- The magnitude of a number as text. -/
def renderMagnitude : Binary64 → List Char
  | .undefined => ['n', 'a', 'n']
  | .infinite _ => ['i', 'n', 'f']
  | .finite _ magnitude =>
      if magnitude = 0 then Decimal.pointed ['0'] []
      else (Decimal.shortest magnitude).render

/-- The number is written with a minus sign. -/
def isNegative : Binary64 → Bool
  | .finite negative _ => negative
  | .infinite negative => negative
  | .undefined => false

/-- The number as text. -/
def render (number : Binary64) : String :=
  .ofList <|
    if number.isNegative then '-' :: number.renderMagnitude
    else number.renderMagnitude

end Binary64

end Locus
