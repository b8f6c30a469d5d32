import JavaStubs.Decimal.Style
import JavaStubs.Text.Quoted
import JavaStubs.Text.Split

/-!
# Data of the wrong shape

A text can be well formed and still not hold what its reader asks for. A `Complaint` says what was
found and what was expected; both input formats make the same complaints, but they spell an absent
value and a fraction each in their own way.
-/
namespace JavaStubs.Shape

/-- What stands where something else was expected. -/
inductive Found where
  | absent
  | boolean (value : Bool)
  | integer (value : Int)
  /-- An integer of 128 bits that needs more than 64. -/
  | wideInteger (value : Int)
  /-- A double precision value, by its bits. -/
  | fraction (bits : Nat)
  | text (value : String)
  | sequence
  | map
  /-- The name of a variant without its contents. -/
  | bareVariant
  deriving DecidableEq, Repr

/-- What is wrong with the shape of data. -/
inductive Complaint where
  | wrongType (found : Found) (expected : String)
  | wrongValue (found : Found) (expected : String)
  | wrongLength (length : Nat) (expected : String)
  | unknownVariant (name : String) (known : List String)
  | unknownField (name : String) (known : List String)
  | missingField (name : String)
  | duplicateField (name : String)
  /-- The number has no value of its kind. -/
  | overflow (kind : String)
  /-- The text of a value cannot be read; the wording says why. -/
  | unreadable (reason : String)
  deriving DecidableEq, Repr

/-- How a format spells what was found. -/
structure Spelling where
  absent : String
  fractions : Decimal.Style

/-- The wording of what was found. -/
def Found.describe (spelling : Spelling) : Found → String
  | .absent => spelling.absent
  | .boolean value => "boolean `" ++ (if value then "true" else "false") ++ "`"
  | .integer value => "integer `" ++ toString value ++ "`"
  | .wideInteger value =>
    "integer `" ++ toString value ++ (if value < Int.pow 2 127 then "` as i128" else "` as u128")
  | .fraction bits => "floating point `" ++ spelling.fractions.writeBits Decimal.double bits ++ "`"
  | .text value => "string " ++ Text.quoted value
  | .sequence => "sequence"
  | .map => "map"
  | .bareVariant => "unit variant"

/-- A choice between names, each between backticks. -/
def choice (names : List String) : String :=
  let ticked := names.map fun name => "`" ++ name ++ "`"
  match ticked with
  | [] => ""
  | [one] => one
  | [one, other] => one ++ " or " ++ other
  | many => "one of " ++ Text.join ", " many

/-- The wording of a complaint. -/
def Complaint.message (spelling : Spelling) : Complaint → String
  | .wrongType found expected =>
    "invalid type: " ++ found.describe spelling ++ ", expected " ++ expected
  | .wrongValue found expected =>
    "invalid value: " ++ found.describe spelling ++ ", expected " ++ expected
  | .wrongLength length expected =>
    "invalid length " ++ toString length ++ ", expected " ++ expected
  | .unknownVariant name known => "unknown variant `" ++ name ++ "`, expected " ++ choice known
  | .unknownField name known => "unknown field `" ++ name ++ "`, expected " ++ choice known
  | .missingField name => "missing field `" ++ name ++ "`"
  | .duplicateField name => "duplicate field `" ++ name ++ "`"
  | .overflow kind => kind ++ " number overflowed"
  | .unreadable reason => reason

/-- What a fixed number of elements is called. -/
def elements (title : String) (count : Nat) : String :=
  title ++ " with " ++ toString count ++ (if count = 1 then " element" else " elements")

end JavaStubs.Shape
