import JavaStubs.Decimal.Binary

/-!
# The shortest decimal of a binary value

The text of a floating point value has the fewest digits that read back as the value. The value
stands between the midpoints to its neighbours, and a decimal reads back if it lies between them,
or on one of them when the mantissa is even. For one digit, two digits and so on, the two decimals
of that many digits next to the value are tried; the first count with a hit wins, the nearer of two
hits is taken, and of two equally near the greater.

All comparisons are made on integers: values are held over the common denominator `denominator`.
-/
namespace JavaStubs.Decimal

/-- The number `digits * 10 ^ exponent`. -/
structure Scaled where
  digits : Nat
  exponent : Int
  deriving DecidableEq, Repr

/-- The number of decimal digits of a positive number. -/
def digitCount (n : Nat) : Nat :=
  (Nat.toDigits 10 n).length

/-- The least `e` with `num / den < 10 ^ e`, for positive `num` and `den`. -/
def leadingPower (num den : Nat) : Int :=
  if den ≤ num then digitCount (num / den)
  else 1 - (digitCount ((den + num - 1) / num - 1) : Int)

/-- A positive value with the midpoints to its neighbours, over a common denominator. -/
structure Rounding where
  low : Nat
  value : Nat
  high : Nat
  denominator : Nat
  endsIncluded : Bool

/-- The interval of the reals that round to `mantissa * 2 ^ exponent`. -/
def Rounding.ofBinary (mantissa : Nat) (exponent : Int) (narrowBelow : Bool) : Rounding :=
  let low := if narrowBelow then 4 * mantissa - 1 else 4 * mantissa - 2
  let scale := Nat.pow 2 exponent.toNat
  { low := low * scale
    value := 4 * mantissa * scale
    high := (4 * mantissa + 2) * scale
    denominator := 4 * Nat.pow 2 (-exponent).toNat
    endsIncluded := mantissa % 2 = 0 }

/-- Whether `num / den` rounds to the value. -/
def Rounding.holds (r : Rounding) (num den : Nat) : Bool :=
  let n := num * r.denominator
  if r.endsIncluded then r.low * den ≤ n && n ≤ r.high * den
  else r.low * den < n && n < r.high * den

/-- The decimal with the exponent `exponent` that reads back as the value and is nearest to it. -/
def Rounding.onGrid? (r : Rounding) (exponent : Int) : Option Scaled :=
  let up := Nat.pow 10 exponent.toNat
  let down := Nat.pow 10 (-exponent).toNat
  let below := r.value * down / (r.denominator * up)
  let above := below + 1
  let belowHolds := r.holds (below * up) down
  let aboveHolds := r.holds (above * up) down
  let aboveNearer :=
    2 * (r.value * down) ≥ (below + above) * (r.denominator * up)
  if aboveHolds && (aboveNearer || !belowHolds) then some ⟨above, exponent⟩
  else if belowHolds then some ⟨below, exponent⟩
  else none

/-- The first hit with one digit more at each step. -/
def Rounding.search (r : Rounding) : Nat → Int → Scaled
  | 0, exponent =>
    ⟨r.value * Nat.pow 10 (-exponent).toNat / (r.denominator * Nat.pow 10 exponent.toNat), exponent⟩
  | count + 1, exponent =>
    match r.onGrid? exponent with
    | some decimal => decimal
    | none => r.search count (exponent - 1)

/-- The number without the zeros at its end; `fuel` bounds their count. -/
def Scaled.stripped : Nat → Scaled → Scaled
  | 0, d => d
  | fuel + 1, d =>
    if d.digits % 10 = 0 && d.digits ≠ 0 then Scaled.stripped fuel ⟨d.digits / 10, d.exponent + 1⟩
    else d

/-- The shortest decimal that reads back as `mantissa * 2 ^ exponent`; zero is zero. No binary
format in use needs more than seventeen digits. -/
def shortest (mantissa : Nat) (exponent : Int) (narrowBelow : Bool) : Scaled :=
  if mantissa = 0 then ⟨0, 0⟩
  else
    let r := Rounding.ofBinary mantissa exponent narrowBelow
    Scaled.stripped 20 (r.search 17 (leadingPower r.value r.denominator - 1))

@[simp] theorem shortest_zero (exponent : Int) (narrowBelow : Bool) :
    shortest 0 exponent narrowBelow = ⟨0, 0⟩ := rfl

end JavaStubs.Decimal
