import JavaStubs.Decimal.Style
import JavaStubs.Model.Expression
import JavaStubs.Text.Digit
import JavaStubs.Text.Units

/-!
# The text of constants

Constants as source code. Characters and strings are escaped unit by unit and come out as printable
ASCII only: line ends and other ASCII controls take the escapes of the lexical grammar, since an
escape with a code point is translated before the literal is read; all beyond ASCII takes a code
point. Values that no literal has are constant expressions.
-/
namespace JavaStubs.Source

/-- One unit of a literal between such quotes. -/
def unitText (quote : Char) (unit : Nat) : List Char :=
  if unit = 0x08 then ['\\', 'b']
  else if unit = 0x09 then ['\\', 't']
  else if unit = 0x0a then ['\\', 'n']
  else if unit = 0x0c then ['\\', 'f']
  else if unit = 0x0d then ['\\', 'r']
  else if unit = 0x5c then ['\\', '\\']
  else if unit = quote.toNat then ['\\', quote]
  else if unit < 0x20 || unit = 0x7f then '\\' :: Text.padded 8 3 unit
  else if unit < 0x7f then [Char.ofNat unit]
  else '\\' :: 'u' :: Text.padded 16 4 unit

/-- The unit that stands in a character literal: a character of two units is replaced by the
replacement character. -/
def characterUnit (c : Char) : Nat :=
  match Text.unitsOf c with
  | [unit] => unit
  | _ => 0xfffd

/-- A character literal. -/
def characterText (c : Char) : List Char :=
  '\'' :: unitText '\'' (characterUnit c) ++ ['\'']

/-- A string literal. -/
def stringText (s : List Char) : List Char :=
  '"' :: (Text.units s).flatMap (unitText '"') ++ ['"']

/-- Whether an integer has type `int`. -/
def fitsInt (value : Int) : Bool :=
  -Int.pow 2 31 ≤ value && value < Int.pow 2 31

/-- An integer literal, with a suffix if it needs the type `long`. -/
def integerText (value : Int) : String :=
  if fitsInt value then toString value else toString value ++ "L"

/-- How finite floating point values are written: without an exponent from 0.0001 up and below
10000000000000000. -/
def fractionStyle : Decimal.Style :=
  { leastPositional := -4, mostPositional := 15 }

/-- A floating point constant: `suffix` ends a finite value and `cast` stands before the
expression for any other. -/
def fractionText (format : Decimal.BinaryFormat) (suffix cast : String) (bits : Nat) : String :=
  match format.magnitude bits with
  | .finite .. => fractionStyle.writeBits format bits ++ suffix
  | .infinite => cast ++ if format.isNegative bits then "(-1.0/0.0)" else "(1.0/0.0)"
  | .notANumber => cast ++ "(0.0/0.0)"

/-- The source text of a constant. -/
def literalText : Literal → String
  | .null => "null"
  | .bool value => if value then "true" else "false"
  | .int value => integerText value.toInt
  | .float bits => fractionText Decimal.single "f" "(float)" bits.toNat
  | .double bits => fractionText Decimal.double "" "" bits.toNat
  | .char value => String.ofList (characterText value)
  | .string value => String.ofList (stringText value.toList)

end JavaStubs.Source
