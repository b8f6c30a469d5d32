import JavaStubs.Cursor

/-!
# TOML values

A TOML document is a table of values, and every key and value knows its span in the text. How a
table came about decides how it may be added to later: `Form` tells tables with a header of their
own from those that are only on the way to another one, those made by dotted keys, and those written
in place.

Dates and times are recognised but not kept: nothing asks for one.
-/
namespace JavaStubs.Toml

/-- A part of a text, in bytes. -/
structure Span where
  start : Nat
  length : Nat
  deriving DecidableEq, Repr

/-- The part between two places. -/
def Span.between (first after : Cursor) : Span := ⟨first.pos, after.pos - first.pos⟩

/-- The name of a value, with the span of its text. -/
structure Key where
  name : String
  span : Span
  deriving DecidableEq, Repr

/-- A number. -/
inductive Number where
  | integer (value : Int)
  /-- A double precision value, by its bits. -/
  | fraction (bits : Nat)
  /-- A finite numeral with a point or an exponent that is beyond every double precision value. -/
  | excessive
  deriving DecidableEq, Repr

/-- A value without parts. -/
inductive Scalar where
  | text (value : String)
  | boolean (value : Bool)
  | number (value : Number)
  /-- A date, a time of day, or both. -/
  | moment
  deriving DecidableEq, Repr

/-- How a table came about. -/
inductive Form where
  /-- It has a header of its own, or is the document. -/
  | opened
  /-- It is on the way to the table that a header names. -/
  | passed
  /-- It is on the way that a dotted key describes. -/
  | dotted
  /-- It is written in place, between braces. -/
  | inPlace
  deriving DecidableEq, Repr

mutual

inductive Value where
  | scalar (span : Span) (content : Scalar)
  /-- A list; `ofHeaders` if its items are tables with headers. -/
  | list (span : Span) (ofHeaders : Bool) (items : List Value)
  | table (span : Span) (form : Form) (members : List Member)

/-- A value of a table. -/
structure Member where
  key : Key
  value : Value

end

instance : Inhabited Value := ⟨.scalar ⟨0, 0⟩ (.boolean false)⟩

/-- The part of the text that a value takes. A table with a header takes its header, and a table on
the way to another takes its key. -/
def Value.span : Value → Span
  | .scalar span _ => span
  | .list span _ _ => span
  | .table span _ _ => span

end JavaStubs.Toml
