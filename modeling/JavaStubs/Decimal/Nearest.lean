import JavaStubs.Decimal.Shortest

/-!
# The nearest binary value

Decimal numerals stand for the nearest value of a binary format, and of two equally near values for
the one with an even mantissa. Numbers beyond the greatest finite value stand for infinity. The bits
of the result come from one rounded division of natural numbers: the quotient counts steps of the
grid that the format has at that magnitude.
-/
namespace JavaStubs.Decimal

/-- The quotient rounded to the nearest number, a half to the even neighbour. -/
def roundDiv (num den : Nat) : Nat :=
  let quotient := num / den
  let remainder := num % den
  if 2 * remainder < den ∨ (2 * remainder = den ∧ quotient % 2 = 0) then quotient
  else quotient + 1

namespace BinaryFormat

/-- The bits of infinity. -/
def infinity (format : BinaryFormat) : Nat :=
  (Nat.pow 2 format.exponentBits - 1) * Nat.pow 2 format.fractionBits

/-- The greatest `e` with `2 ^ e ≤ num / den`, for positive `num` and `den`. -/
def binaryPower (num den : Nat) : Int :=
  let guess := (Nat.log2 num : Int) - Nat.log2 den
  if den * Nat.pow 2 guess.toNat ≤ num * Nat.pow 2 (-guess).toNat then guess else guess - 1

/-- The bits of the value nearest to `num / den`, for positive `num` and `den`. -/
def nearest (format : BinaryFormat) (num den : Nat) : Nat :=
  let least := format.leastExponent
  let exponent := max least (binaryPower num den - format.fractionBits)
  let steps := roundDiv (num * Nat.pow 2 (-exponent).toNat) (den * Nat.pow 2 exponent.toNat)
  min ((exponent - least).toNat * Nat.pow 2 format.fractionBits + steps) format.infinity

/-- The bits of the value nearest to a decimal. Powers of ten far beyond the range of the format
are not computed. -/
def ofDecimal (format : BinaryFormat) (d : Scaled) : Nat :=
  let power := d.exponent + digitCount d.digits
  let range := Nat.pow 2 format.exponentBits + format.fractionBits
  if d.digits = 0 ∨ power < -range then 0
  else if power > range then format.infinity
  else format.nearest (d.digits * Nat.pow 10 d.exponent.toNat) (Nat.pow 10 (-d.exponent).toNat)

/-- A bit pattern with its sign. -/
def withSign (format : BinaryFormat) (negative : Bool) (bits : Nat) : Nat :=
  if negative then bits + Nat.pow 2 (format.fractionBits + format.exponentBits) else bits

end BinaryFormat

end JavaStubs.Decimal
