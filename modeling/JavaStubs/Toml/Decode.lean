import JavaStubs.Decimal.Style
import JavaStubs.Shape
import JavaStubs.Toml.Value

/-!
# Decoding TOML values

Decoders for texts, truth values and records. A record is written as a table, or as the list of its
fields in order. A table's members are looked at in the order of their keys, and the first problem
counts; every problem comes with the part of the text that it is about.
-/
namespace JavaStubs.Toml

open Shape (Complaint Found)

/-- What is wrong with the shape of a document, and where. -/
structure Misfit where
  complaint : Complaint
  span : Span
  deriving DecidableEq, Repr

/-- The result of decoding. -/
abbrev Decoded (α : Type) := Except Misfit α

/-- Fractions are written without an exponent, however great or small they are. -/
def fractionStyle : Decimal.Style :=
  { leastPositional := -400, mostPositional := 400 }

/-- How TOML spells what was found; there are no absent values. -/
def spelling : Shape.Spelling := ⟨"unit value", fractionStyle⟩

/-- The complaint about a number where something else was expected. -/
def Number.complaint (number : Number) (expected : String) : Complaint :=
  match number with
  | .fraction bits => .wrongType (.fraction bits) expected
  | .excessive => .overflow "floating-point"
  | .integer value =>
    if -Int.pow 2 63 ≤ value ∧ value < Int.pow 2 64 then .wrongType (.integer value) expected
    else if -Int.pow 2 127 ≤ value ∧ value < Int.pow 2 128 then
      .wrongType (.wideInteger value) expected
    else .overflow "integer"

/-- The complaint about a scalar where something else was expected. A date or time is seen as a
table. -/
def Scalar.complaint (scalar : Scalar) (expected : String) : Complaint :=
  match scalar with
  | .text value => .wrongType (.text value) expected
  | .boolean value => .wrongType (.boolean value) expected
  | .number value => value.complaint expected
  | .moment => .wrongType .map expected

/-- The complaint about a value where something else was expected. -/
def Value.complaint (value : Value) (expected : String) : Complaint :=
  match value with
  | .scalar _ content => content.complaint expected
  | .list .. => .wrongType .sequence expected
  | .table .. => .wrongType .map expected

/-- The misfit of a value where something else was expected. -/
def Value.misfit (value : Value) (expected : String) : Misfit :=
  ⟨value.complaint expected, value.span⟩

namespace Decode

/-- A text. -/
def text (expected : String) : Value → Decoded String
  | .scalar _ (.text value) => .ok value
  | value => .error (value.misfit expected)

/-- A truth value. -/
def boolean : Value → Decoded Bool
  | .scalar _ (.boolean value) => .ok value
  | value => .error (value.misfit "a boolean")

end Decode

/-- A field of a record that is built as a `σ`. Every field has a default. -/
structure Slot (σ : Type) where
  name : String
  /-- Reads the field and puts it into the record. -/
  read : Value → Decoded (σ → σ)

namespace Slot

/-- A field that is put into the record by `put`. -/
def of {σ α : Type} (name : String) (read : Value → Decoded α) (put : α → σ → σ) : Slot σ :=
  ⟨name, fun value => (read value).map put⟩

/-- Puts a member of a table into the record. -/
def readMember {σ : Type} (slots : List (Slot σ)) (record : σ) (member : Member) : Decoded σ :=
  match slots.find? (·.name == member.key.name) with
  | some slot => do
    let put ← slot.read member.value
    return put record
  | none =>
    .error ⟨.unknownField member.key.name (slots.map (·.name)), member.key.span⟩

/-- Puts the members of a table into the record, in the order of their keys. -/
def readMembers {σ : Type} (slots : List (Slot σ)) (initial : σ) (members : List Member) :
    Decoded σ :=
  let inOrder := members.mergeSort fun a b => !(b.key.name < a.key.name)
  inOrder.foldlM (readMember slots) initial

/-- Puts the items of a list into the record, field by field. Items without a field are left out. -/
def readItems {σ : Type} (slots : List (Slot σ)) (initial : σ) (items : List Value) : Decoded σ :=
  (slots.zip items).foldlM (fun record (slot, value) => do
    let put ← slot.read value
    return put record) initial

end Slot

/-- The name under which a date or time is found when it is seen as a table. -/
def momentField : String := "$__toml_private_datetime"

/-- A record, built up from `initial`. -/
def Decode.record {σ : Type} (title : String) (initial : σ) (slots : List (Slot σ)) :
    Value → Decoded σ
  | .table _ _ members => Slot.readMembers slots initial members
  | .list _ _ items => Slot.readItems slots initial items
  | .scalar span .moment => .error ⟨.unknownField momentField (slots.map (·.name)), span⟩
  | value => .error (value.misfit title)

end JavaStubs.Toml
