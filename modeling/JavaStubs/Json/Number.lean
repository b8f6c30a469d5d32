import JavaStubs.Json.Flaw

/-!
# JSON numbers

A number is first cut out of the text as a `Numeral` and then valued. An integer of 64 bits, signed
or not, stays an integer; every other numeral is a double precision value. Such a value is made from
the leading digits, as many as fit 64 bits, and one multiplication or division by a power of ten, so
it can differ from the nearest one in the last place.

A numeral that is skipped is not valued, so it cannot be out of range.
-/
namespace JavaStubs.Json

/-- The value of a number. -/
inductive Number where
  | integer (value : Int)
  /-- A double precision value, by its bits. -/
  | fraction (bits : UInt64)
  deriving DecidableEq, Repr

/-- The exponent of a numeral. -/
structure Exponent where
  negative : Bool
  digits : List Char

/-- The parts of a number's text. -/
structure Numeral where
  negative : Bool
  whole : List Char
  fraction : Option (List Char)
  exponent : Option Exponent

/-- Why no numeral can be cut out of the text. -/
structure NumberFlaw where
  /-- Whether the text ends where a digit is due. -/
  atEnd : Bool
  pos : Nat

/-- The flaw of a number whose value is asked for. -/
def NumberFlaw.strict (flaw : NumberFlaw) : Flaw :=
  ⟨if flaw.atEnd then .endOfValue else .badNumber, flaw.pos⟩

/-- The flaw of a number that is skipped. -/
def NumberFlaw.loose (flaw : NumberFlaw) : Flaw :=
  ⟨.badNumber, flaw.pos⟩

namespace Numeral

/-- The digits at the cursor and the place after them. -/
def digits (here : Cursor) : List Char × Cursor :=
  here.span Char.isDigit

/-- The digits of the exponent after its letter; at least one is due. -/
def readExponent (here : Cursor) : Except NumberFlaw (Exponent × Cursor) :=
  let (negative, here) :=
    match here.rest with
    | '-' :: _ => (true, here.advance 1)
    | '+' :: _ => (false, here.advance 1)
    | _ => (false, here)
  match digits here with
  | ([], _) => .error ⟨here.rest.isEmpty, here.looked⟩
  | (run, after) => .ok (⟨negative, run⟩, after)

/-- An exponent, if its letter stands at the cursor. -/
def readExponent? (here : Cursor) : Except NumberFlaw (Option Exponent × Cursor) :=
  match here.rest with
  | 'e' :: _ | 'E' :: _ => do
    let (exponent, after) ← readExponent (here.advance 1)
    return (some exponent, after)
  | _ => .ok (none, here)

/-- The digits after a point, if one stands at the cursor; at least one is due. -/
def readFraction? (here : Cursor) : Except NumberFlaw (Option (List Char) × Cursor) :=
  match here.rest with
  | '.' :: _ =>
    let here := here.advance 1
    match digits here with
    | ([], _) => .error ⟨here.rest.isEmpty, here.looked⟩
    | (run, after) => .ok (some run, after)
  | _ => .ok (none, here)

/-- The digits before the point: one zero, or any digits that do not begin with zero. -/
def readWhole (here : Cursor) : Except NumberFlaw (List Char × Cursor) :=
  match digits here with
  | ([], _) => .error ⟨here.rest.isEmpty, here.looked⟩
  | ('0' :: _ :: _, _) => .error ⟨false, here.pos + 2⟩
  | (run, after) => .ok (run, after)

/-- Cuts a numeral out of the text; a minus sign or a digit stands at the cursor. -/
def read (here : Cursor) : Except NumberFlaw (Numeral × Cursor) := do
  let (negative, here) :=
    match here.rest with
    | '-' :: _ => (true, here.advance 1)
    | _ => (false, here)
  let (whole, here) ← readWhole here
  let (fraction, here) ← readFraction? here
  let (exponent, here) ← readExponent? here
  return (⟨negative, whole, fraction, exponent⟩, here)

/-- The value of one digit. -/
def digit (c : Char) : Nat := c.toNat - '0'.toNat

/-- The digits appended to a number as long as it stays below the limit: the number, and how many
were used. -/
def accumulate (limit value : Nat) : List Char → Nat × Nat
  | [] => (value, 0)
  | c :: rest =>
    let next := value * 10 + digit c
    if next < limit then
      let (total, used) := accumulate limit next rest
      (total, used + 1)
    else (value, 0)

/-- A power of ten that is a double precision value. -/
def powerOfTen (power : Nat) : Float := Float.ofScientific 1 false power

/-- `value * 10 ^ exponent`; very small values are first moved in steps of 308 places. -/
def scale : Nat → Float → Int → Option Float
  | 0, value, _ => some value
  | steps + 1, value, exponent =>
    if exponent.natAbs ≤ 308 then
      if 0 ≤ exponent then
        let product := value * powerOfTen exponent.natAbs
        if product.isInf then none else some product
      else some (value / powerOfTen exponent.natAbs)
    else if value == 0 then some value
    else if 0 ≤ exponent then none
    else scale steps (value / powerOfTen 308) (exponent + 308)

/-- The double precision value with that sign. -/
def signed (negative : Bool) (value : Float) : UInt64 :=
  (if negative then -value else value).toBits

/-- The value of a numeral that ends at `after`. -/
def value (numeral : Numeral) (after : Nat) : Except Flaw Number :=
  let limit := Nat.pow 2 64
  let (whole, wholeUsed) := accumulate limit 0 numeral.whole
  let dropped := numeral.whole.length - wholeUsed
  let fraction := numeral.fraction.getD []
  let (significand, fractionUsed) := accumulate limit whole fraction
  let places : Int := dropped - fractionUsed
  let scaled (exponent : Int) : Except Flaw Number :=
    match scale 4 significand.toUInt64.toFloat exponent with
    | some result => .ok (.fraction (signed numeral.negative result))
    | none => .error ⟨.numberOutOfRange, after⟩
  match numeral.fraction, numeral.exponent with
  | none, none =>
    if dropped > 0 then scaled places
    else if !numeral.negative then .ok (.integer significand)
    else if 0 < significand && significand ≤ Nat.pow 2 63 then .ok (.integer (-significand))
    else .ok (.fraction (signed true significand.toUInt64.toFloat))
  | _, none => scaled places
  | _, some exponent =>
    let (power, used) := accumulate (Nat.pow 2 31) 0 exponent.digits
    if used < exponent.digits.length then
      if significand ≠ 0 && !exponent.negative then
        .error ⟨.numberOutOfRange, after - (exponent.digits.length - used - 1)⟩
      else .ok (.fraction (signed numeral.negative 0))
    else scaled (if exponent.negative then places - power else places + power)

end Numeral

end JavaStubs.Json
