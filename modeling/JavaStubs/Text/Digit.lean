/-!
# Digits

Digits to a base of at most sixteen, the numbers that they write, and the digits of a number.
-/
namespace JavaStubs.Text

/-- The value of a digit; letters of either case are digits from ten to fifteen. -/
def digitValue? (c : Char) : Option Nat :=
  if '0' ≤ c ∧ c ≤ '9' then some (c.toNat - '0'.toNat)
  else if 'a' ≤ c ∧ c ≤ 'f' then some (c.toNat - 'a'.toNat + 10)
  else if 'A' ≤ c ∧ c ≤ 'F' then some (c.toNat - 'A'.toNat + 10)
  else none

/-- A number with one more digit at its end. -/
def appendDigit? (base value : Nat) (c : Char) : Option Nat := do
  let digit ← digitValue? c
  if digit < base then some (value * base + digit) else none

/-- The number that digits write; the empty list writes none. -/
def number? (base : Nat) : List Char → Option Nat
  | [] => none
  | digits => digits.foldlM (appendDigit? base) 0

/-- The last digit counts itself, the ones before it as often as the base says. -/
theorem number?_append (base : Nat) (c d : Char) (digits : List Char) :
    number? base (c :: digits ++ [d]) =
      (number? base (c :: digits)).bind fun value => appendDigit? base value d := by
  simp [number?, List.foldlM_append, Option.bind_assoc]

/-- A number with at least so many digits. -/
def padded (base width n : Nat) : List Char :=
  let digits := Nat.toDigits base n
  List.replicate (width - digits.length) '0' ++ digits

end JavaStubs.Text
