import JavaStubs.Decimal.Nearest
import JavaStubs.Text.Digit
import JavaStubs.Text.Split
import JavaStubs.Toml.Value

/-!
# TOML numbers

Integers are written to the base ten, or after `0x`, `0o` and `0b` to another one. A fraction has a
point, an exponent or both, or is one of the words `inf` and `nan`. Underscores may stand between
digits, and a decimal numeral does not begin with a superfluous zero.

All functions here are given the characters of a whole numeral.
-/
namespace JavaStubs.Toml.Number

/-- Digits without the underscores between them; at least one digit is due. -/
def digits? (base : Nat) (s : List Char) : Option (List Char) :=
  let runs := Text.pieces '_' s
  let digits := runs.flatten
  if runs.any List.isEmpty then none
  else if (Text.number? base digits).isSome then some digits
  else none

/-- The digits of a decimal numeral before its point. -/
def whole? (s : List Char) : Option (List Char) := do
  let digits ← digits? 10 s
  match digits with
  | '0' :: _ :: _ => none
  | digits => some digits

/-- A numeral without its sign; the flag says whether it is negative. -/
def unsigned : List Char → Bool × List Char
  | '-' :: rest => (true, rest)
  | '+' :: rest => (false, rest)
  | s => (false, s)

/-- An integer. -/
def integer? (s : List Char) : Option Int :=
  let toBase (base : Nat) (s : List Char) : Option Int := do
    let value ← Text.number? base (← digits? base s)
    return value
  match s with
  | '0' :: 'x' :: rest => toBase 16 rest
  | '0' :: 'o' :: rest => toBase 8 rest
  | '0' :: 'b' :: rest => toBase 2 rest
  | s => do
    let (negative, digits) := unsigned s
    let value ← Text.number? 10 (← whole? digits)
    return if negative then -value else value

/-- The exponent after its letter; a numeral without one has the exponent zero. -/
def exponent? : List Char → Option Int
  | [] => some 0
  | _ :: s => do
    let (negative, digits) := unsigned s
    let value ← Text.number? 10 (← digits? 10 digits)
    return if negative then -value else value

/-- Whether the character is the letter before an exponent. -/
def isExponentLetter (c : Char) : Bool := c == 'e' || c == 'E'

/-- The digits of a numeral without sign, with the power of ten of the last one. -/
def decimal? (s : List Char) : Option Decimal.Scaled := do
  let mantissa := s.takeWhile (!isExponentLetter ·)
  let exponent ← exponent? (s.dropWhile (!isExponentLetter ·))
  let whole ← whole? (mantissa.takeWhile (· != '.'))
  let places ←
    match mantissa.dropWhile (· != '.') with
    | [] => some []
    | _ :: places => digits? 10 places
  let digits ← Text.number? 10 (whole ++ places)
  return ⟨digits, exponent - places.length⟩

/-- A fraction. -/
def fraction? (s : List Char) : Option Number :=
  let (negative, s) := unsigned s
  let bits (magnitude : Nat) : Number := .fraction (Decimal.double.withSign negative magnitude)
  if s = ['i', 'n', 'f'] then some (bits Decimal.double.infinity)
  else if s = ['n', 'a', 'n'] then some (bits (Decimal.double.infinity + 1))
  else do
    let magnitude := Decimal.double.ofDecimal (← decimal? s)
    return if magnitude = Decimal.double.infinity then .excessive else bits magnitude

/-- A number. -/
def read? (s : List Char) : Option Number :=
  ((integer? s).map .integer).or (fraction? s)

end JavaStubs.Toml.Number
