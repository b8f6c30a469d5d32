import JavaStubs.Source.LiteralText

/-!
# Reading literals

A reader of constants by the lexical rules of the language. It works in two steps. First the
escapes with code points are translated, wherever they stand; what comes out are units, and a quote
or a line end among them counts like any other. Then the literal is read from the units, with the
escapes that characters and strings may have. A text is a literal only if nothing of it is left.
-/
namespace JavaStubs

/-- What a literal denotes. Characters and strings are held as units. -/
inductive LiteralValue where
  | null
  | bool (value : Bool)
  /-- A value of the type `int`. -/
  | int (value : Int)
  /-- A value of the type `long`. -/
  | long (value : Int)
  | char (unit : Nat)
  | string (units : List Nat)
  deriving DecidableEq, Repr

/-- The text that units encode. A leading surrogate and the trailing one behind it are one
character, and no surrogate stands alone. -/
def Text.ofUnits? : List Nat → Option (List Char)
  | [] => some []
  | unit :: rest =>
    if 0xd800 ≤ unit ∧ unit < 0xdc00 then
      match rest with
      | [] => none
      | trailing :: rest =>
        if 0xdc00 ≤ trailing ∧ trailing < 0xe000 then
          let offset := (unit - 0xd800) * 0x400 + (trailing - 0xdc00)
          (ofUnits? rest).map (Char.ofNat (0x10000 + offset) :: ·)
        else none
    else if 0xdc00 ≤ unit ∧ unit < 0xe000 then none
    else (ofUnits? rest).map (Char.ofNat unit :: ·)

/-- The characters that every encoding of source files has. -/
def Text.isPrintableAscii (c : Char) : Bool := 0x20 ≤ c.toNat && c.toNat ≤ 0x7e

namespace Source

/-- How far an escape with a code point has been read. -/
inductive EscapeState where
  /-- Not at all: an even number of backslashes stands before what comes next. -/
  | outside
  /-- A backslash, before which an even number of others stands. -/
  | backslash
  /-- Such a backslash and one `u` or more. -/
  | marker
  /-- Also so many digits, which write that number. -/
  | digits (count value : Nat)

/-- The units of a text whose escapes with code points are translated. A backslash begins one only
after an even number of backslashes, and then four digits must follow. -/
def translate? : EscapeState → List Char → Option (List Nat)
  | .outside, [] => some []
  | .backslash, [] => some ['\\'.toNat]
  | .marker, [] => none
  | .digits _ _, [] => none
  | .outside, c :: rest =>
    if c = '\\' then translate? .backslash rest
    else (translate? .outside rest).map (Text.unitsOf c ++ ·)
  | .backslash, c :: rest =>
    if c = 'u' then translate? .marker rest
    else (translate? .outside rest).map ('\\'.toNat :: Text.unitsOf c ++ ·)
  | .marker, c :: rest =>
    if c = 'u' then translate? .marker rest
    else (Text.appendDigit? 16 0 c).bind fun value => translate? (.digits 1 value) rest
  | .digits count value, c :: rest =>
    (Text.appendDigit? 16 value c).bind fun value =>
      if count = 3 then (translate? .outside rest).map (value :: ·)
      else translate? (.digits (count + 1) value) rest

-- Behind two backslashes, nothing is translated.
example : translate? .outside "\\u0022\\\\u0022".toList =
    some (Text.units "\"\\\\u0022".toList) := by decide

/-- The escapes of one sign, and the units that they stand for. -/
def namedEscapes : List (Nat × Nat) :=
  [('b'.toNat, 0x08), ('t'.toNat, 0x09), ('n'.toNat, 0x0a), ('f'.toNat, 0x0c), ('r'.toNat, 0x0d),
   ('"'.toNat, '"'.toNat), ('\''.toNat, '\''.toNat), ('\\'.toNat, '\\'.toNat)]

def isOctalDigit (unit : Nat) : Bool := '0'.toNat ≤ unit && unit ≤ '7'.toNat

/-- The digits of an octal escape: as many as there are, but no more than three, and no more than
two if the first one is greater than three. -/
def octalDigits (units : List Nat) : List Nat :=
  (units.takeWhile isOctalDigit).take (if units.head?.any (· ≤ '3'.toNat) then 3 else 2)

/-- The number that octal digits write. -/
def octalValue (digits : List Nat) : Nat :=
  digits.foldl (fun value digit => value * 8 + (digit - '0'.toNat)) 0

/-- An escape, after its backslash: the unit that it stands for, and what comes after it. -/
def readEscape? (units : List Nat) : Option (Nat × List Nat) :=
  match units with
  | [] => none
  | unit :: rest =>
    match namedEscapes.lookup unit with
    | some value => some (value, rest)
    | none =>
      match octalDigits (unit :: rest) with
      | [] => none
      | digits => some (octalValue digits, (unit :: rest).drop digits.length)

theorem length_of_readEscape? {units after : List Nat} {value : Nat}
    (h : readEscape? units = some (value, after)) : after.length < units.length := by
  unfold readEscape? at h
  split at h
  · simp at h
  · next unit rest =>
    split at h
    · obtain ⟨-, rfl⟩ := Prod.mk.inj (Option.some.inj h)
      simp
    · split at h
      · simp at h
      · next digits hne =>
        obtain ⟨-, rfl⟩ := Prod.mk.inj (Option.some.inj h)
        have hlength : 0 < (octalDigits (unit :: rest)).length := List.length_pos_iff.mpr hne
        simp only [List.length_drop, List.length_cons]
        omega

def isLineEnd (unit : Nat) : Bool := unit = '\n'.toNat || unit = '\r'.toNat

/-- The units that a literal stands for, from behind its opening quote to the closing one, and what
comes after that. -/
def scan? (quote : Nat) : List Nat → Option (List Nat × List Nat)
  | [] => none
  | unit :: rest =>
    if unit = quote then some ([], rest)
    else if isLineEnd unit then none
    else if unit = '\\'.toNat then
      match _h : readEscape? rest with
      | none => none
      | some (value, after) => (scan? quote after).map fun (read, after) => (value :: read, after)
    else (scan? quote rest).map fun (read, after) => (unit :: read, after)
termination_by units => units.length
decreasing_by
  · have := length_of_readEscape? _h
    simp only [List.length_cons]
    omega
  · simp

-- A line end stands in no string, also where its code point is written.
example : (translate? .outside "\\u000a\"".toList).bind (scan? '"'.toNat) = none := by cbv

/-- Whether a signed number of so many bits can have that value. -/
def fitsBits (width : Nat) (value : Int) : Bool :=
  -Int.pow 2 (width - 1) ≤ value && value < Int.pow 2 (width - 1)

/-- A number with what stands behind its digits: with a suffix it has the type `long`. -/
def typeInteger? (value : Int) : List Char → Option LiteralValue
  | [] => if fitsBits 32 value then some (.int value) else none
  | ['L'] | ['l'] => if fitsBits 64 value then some (.long value) else none
  | _ => none

/-- A decimal literal, before which a minus sign may stand. A sign belongs to the number, for the
least number of a type is written with digits that alone would be too great for it. -/
def readInteger? (negative : Bool) (text : List Char) : Option LiteralValue :=
  let digits := text.takeWhile Char.isDigit
  if digits.head? = some '0' ∧ 1 < digits.length then none
  else
    (Text.number? 10 digits).bind fun number =>
      typeInteger? (if negative then -number else number) (text.dropWhile Char.isDigit)

/-- A constant that is no word, from the units of its text, all of them. -/
def readWordless? : List Nat → Option LiteralValue
  | [] => none
  | first :: rest =>
    if first = '"'.toNat then
      match scan? first rest with
      | some (units, []) => some (.string units)
      | _ => none
    else if first = '\''.toNat then
      match scan? first rest with
      | some ([unit], []) => some (.char unit)
      | _ => none
    else if first = '-'.toNat then readInteger? true (rest.map Char.ofNat)
    else readInteger? false ((first :: rest).map Char.ofNat)

/-- A constant from the units of its text, all of them. -/
def readUnits? (units : List Nat) : Option LiteralValue :=
  if units = Text.units "null".toList then some .null
  else if units = Text.units "true".toList then some (.bool true)
  else if units = Text.units "false".toList then some (.bool false)
  else readWordless? units

/-- A constant from its text. -/
def readLiteral? (text : List Char) : Option LiteralValue :=
  (translate? .outside text).bind readUnits?

end Source

end JavaStubs
