import JavaStubs.Decimal.Shortest

/-!
# Writing floating point values

A style says which magnitudes are written positionally and how an exponent looks. Positional
values always have a fractional part; a value with an exponent has one only if it needs it.
-/
namespace JavaStubs.Decimal

/-- How a finite value is laid out. -/
structure Style where
  /-- Powers of ten of the first digit from which and up to which a value is positional. -/
  leastPositional : Int
  mostPositional : Int
  /-- Whether an exponent that is not negative has a plus sign. -/
  plusSign : Bool := false
  /-- The least number of digits of an exponent. -/
  exponentDigits : Nat := 1

/-- The decimal digits of a number. -/
def digitText (n : Nat) : List Char :=
  Nat.toDigits 10 n

/-- The digits with the point after `shift` places from their end. -/
def positional (digits : List Char) (exponent : Int) : List Char :=
  if 0 ≤ exponent then digits ++ List.replicate exponent.toNat '0' ++ ['.', '0']
  else
    let places := (-exponent).toNat
    if places < digits.length then
      digits.take (digits.length - places) ++ '.' :: digits.drop (digits.length - places)
    else '0' :: '.' :: List.replicate (places - digits.length) '0' ++ digits

/-- The exponent with its sign. -/
def Style.exponentText (style : Style) (power : Int) : List Char :=
  let digits := digitText power.natAbs
  let sign := if power < 0 then ['-'] else if style.plusSign then ['+'] else []
  'e' :: sign ++ List.replicate (style.exponentDigits - digits.length) '0' ++ digits

/-- One digit before the point, the others after it, and the exponent. -/
def Style.scientific (style : Style) (digits : List Char) (power : Int) : List Char :=
  (match digits with
    | [] => []
    | [d] => [d]
    | d :: rest => d :: '.' :: rest) ++ style.exponentText power

/-- The absolute value in the style. -/
def Style.unsigned (style : Style) (d : Scaled) : List Char :=
  let digits := digitText d.digits
  let power := d.exponent + digits.length - 1
  if d.digits = 0 then ['0', '.', '0']
  else if style.leastPositional ≤ power && power ≤ style.mostPositional then
    positional digits d.exponent
  else style.scientific digits power

/-- A finite value in the style, negative zero with its sign. -/
def Style.write (style : Style) (negative : Bool) (d : Scaled) : String :=
  String.ofList ((if negative then ['-'] else []) ++ style.unsigned d)

/-- A bit pattern in the style; the values that are not finite have the names `inf` and `NaN`. -/
def Style.writeBits (style : Style) (format : BinaryFormat) (bits : Nat) : String :=
  match format.magnitude bits with
  | .finite mantissa exponent narrowBelow =>
    style.write (format.isNegative bits) (shortest mantissa exponent narrowBelow)
  | .infinite => if format.isNegative bits then "-inf" else "inf"
  | .notANumber => "NaN"

end JavaStubs.Decimal
