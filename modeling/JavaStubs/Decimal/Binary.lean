/-!
# Binary floating point

The interchange formats for binary floating point, decoded with integers only: a finite value is
`mantissa * 2 ^ exponent` with a sign, and the reals that round to it form an interval around it.
-/
namespace JavaStubs.Decimal

/-- A binary interchange format, given by the widths of its two fields. -/
structure BinaryFormat where
  fractionBits : Nat
  exponentBits : Nat

/-- Single precision. -/
def single : BinaryFormat := ⟨23, 8⟩

/-- Double precision. -/
def double : BinaryFormat := ⟨52, 11⟩

/-- The absolute value that a bit pattern stands for. -/
inductive Magnitude where
  /-- The value `mantissa * 2 ^ exponent`. The flag says that the next smaller value is at half
  the distance of the next greater one. -/
  | finite (mantissa : Nat) (exponent : Int) (narrowBelow : Bool)
  | infinite
  | notANumber
  deriving DecidableEq, Repr

namespace BinaryFormat

/-- The exponent of the smallest positive value. -/
def leastExponent (format : BinaryFormat) : Int :=
  2 - Int.pow 2 (format.exponentBits - 1) - format.fractionBits

/-- Whether the sign bit is set. -/
def isNegative (format : BinaryFormat) (bits : Nat) : Bool :=
  bits.testBit (format.fractionBits + format.exponentBits)

/-- The absolute value of a bit pattern. -/
def magnitude (format : BinaryFormat) (bits : Nat) : Magnitude :=
  let fraction := bits % Nat.pow 2 format.fractionBits
  let field := bits / Nat.pow 2 format.fractionBits % Nat.pow 2 format.exponentBits
  if field = Nat.pow 2 format.exponentBits - 1 then
    if fraction = 0 then .infinite else .notANumber
  else if field = 0 then
    .finite fraction format.leastExponent false
  else
    .finite (Nat.pow 2 format.fractionBits + fraction) (format.leastExponent + (field - 1))
      (fraction = 0 && 1 < field)

end BinaryFormat

end JavaStubs.Decimal
