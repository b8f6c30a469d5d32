/-!
# Dates and times

Whether characters write a date, a time of day, or a date and a time with or without an offset from
universal time. A date is one of the Gregorian calendar; a minute may have a leap second, and
seconds may be missing.
-/
namespace JavaStubs.Toml.Moment

/-- A number of two digits, and the characters after it. -/
def twoDigits? : List Char → Option (Nat × List Char)
  | a :: b :: rest =>
    if a.isDigit && b.isDigit then
      some ((a.toNat - '0'.toNat) * 10 + (b.toNat - '0'.toNat), rest)
    else none
  | _ => none

/-- A number of two digits that is at most `most`, and the characters after it. -/
def upTo? (most : Nat) (s : List Char) : Option (Nat × List Char) := do
  let (value, rest) ← twoDigits? s
  if value ≤ most then some (value, rest) else none

/-- The characters after the one that is due. -/
def after? (due : Char) : List Char → Option (List Char)
  | c :: rest => if c = due then some rest else none
  | [] => none

/-- Whether a year has 366 days. -/
def isLeapYear (year : Nat) : Bool :=
  year % 4 = 0 && (year % 100 ≠ 0 || year % 400 = 0)

/-- The number of days of a month. -/
def daysIn (year month : Nat) : Nat :=
  if month = 2 then if isLeapYear year then 29 else 28
  else if month ∈ [4, 6, 9, 11] then 30
  else 31

/-- The characters after a date. -/
def afterDate? (s : List Char) : Option (List Char) := do
  let (century, s) ← twoDigits? s
  let (year, s) ← twoDigits? s
  let (month, s) ← upTo? 12 (← after? '-' s)
  let (day, s) ← twoDigits? (← after? '-' s)
  if 1 ≤ month ∧ 1 ≤ day ∧ day ≤ daysIn (century * 100 + year) month then some s else none

/-- The characters after the fraction of a second, if a point begins one. -/
def afterFraction? : List Char → Option (List Char)
  | '.' :: s => if s.head?.any Char.isDigit then some (s.dropWhile Char.isDigit) else none
  | s => some s

/-- The characters after a time of day. -/
def afterTime? (s : List Char) : Option (List Char) := do
  let (_, s) ← upTo? 23 s
  let (_, s) ← upTo? 59 (← after? ':' s)
  match s with
  | ':' :: s =>
    let (_, s) ← upTo? 60 s
    afterFraction? s
  | s => return s

/-- Whether characters are nothing or an offset. -/
def endsInOffset : List Char → Bool
  | [] => true
  | ['Z'] | ['z'] => true
  | sign :: s =>
    (sign == '+' || sign == '-') &&
      (do
        let (_, s) ← upTo? 23 s
        let (_, s) ← upTo? 59 (← after? ':' s)
        return s.isEmpty).getD false

/-- Whether characters write a date without a time. -/
def isDate (s : List Char) : Bool :=
  afterDate? s = some []

/-- Whether characters write a date, a time of day, or both. -/
def isMoment (s : List Char) : Bool :=
  match afterDate? s with
  | none => afterTime? s = some []
  | some [] => true
  | some (c :: rest) => [' ', 'T', 't'].contains c && (afterTime? rest).any endsInOffset

end JavaStubs.Toml.Moment
