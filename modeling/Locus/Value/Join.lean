import Locus.Range.Union
import Locus.Value.Basic

/-!
# Joining values

The join operator unites ranges, sets of offsets, dictionaries, truth values,
and the binary digits of whole numbers. It refuses every other pair of values.
-/

namespace Locus

/-- Values of these classes cannot be joined. -/
structure OperandError where
  /-- Class of the left value. -/
  left : Kind
  /-- Class of the right value. -/
  right : Kind
  deriving DecidableEq

/-- What is said about values that cannot be joined. -/
def OperandError.message (error : OperandError) : String :=
  "unsupported operand type(s) for |: '" ++ error.left.name ++
    "' and '" ++ error.right.name ++ "'"

/-- The number whose binary digits, in two's complement, are set where those
of either number are. -/
def joinDigits : Int → Int → Int
  | .ofNat first, .ofNat second => .ofNat (first ||| second)
  | .ofNat first, .negSucc second => .negSucc (second - (first &&& second))
  | .negSucc first, .ofNat second => .negSucc (first - (first &&& second))
  | .negSucc first, .negSucc second => .negSucc (first &&& second)

/-- The entries of two dictionaries. Where both have a key, the entry keeps the
place of the first and takes the value of the second. -/
def joinEntries (first second : List (String × Value)) :
    List (String × Value) :=
  let kept := first.map fun entry =>
    (entry.1, (second.lookup entry.1).getD entry.2)
  kept ++ second.filter fun entry => (first.lookup entry.1).isNone

/-- Join two values. -/
def Value.join : Value → Value → Except OperandError Value
  | .range first, .range second => .ok (.range (first ∪ second))
  | .offsets first, .offsets second => .ok (.offsets (first ∪ second))
  | .dictionary first, .dictionary second =>
      .ok (.dictionary (joinEntries first second))
  | .truth first, .truth second => .ok (.truth (first || second))
  | .truth first, .number second =>
      .ok (.number (joinDigits (if first then 1 else 0) second))
  | .number first, .truth second =>
      .ok (.number (joinDigits first (if second then 1 else 0)))
  | .number first, .number second => .ok (.number (joinDigits first second))
  | first, second => .error ⟨first.kind, second.kind⟩

@[simp] theorem Value.join_range (first second : Range) :
    (Value.range first).join (.range second) =
      .ok (.range (first ∪ second)) := rfl

end Locus
