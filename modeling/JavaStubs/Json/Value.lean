import JavaStubs.Decimal.Style
import JavaStubs.Text.Digit

/-!
# JSON values

Plain JSON values and their compact text. Numbers are integers or double precision values; the
members of an object keep their order.
-/
namespace JavaStubs

inductive Json where
  | null
  | boolean (value : Bool)
  | integer (value : Int)
  /-- A double precision value, by its bits. -/
  | fraction (bits : UInt64)
  | text (value : String)
  | list (items : List Json)
  | record (members : List (String × Json))

namespace Json

instance : Inhabited Json := ⟨.null⟩

/-- How fractions are written: with an exponent of two digits outside a middle range. -/
def fractionStyle : Decimal.Style :=
  { leastPositional := -5, mostPositional := 15, plusSign := true, exponentDigits := 2 }

/-- A list of texts. -/
def texts (values : List String) : Json :=
  .list (values.map .text)

/-- The value, or null. -/
def ofOption : Option Json → Json
  | some value => value
  | none => .null

/-- One character of a text between quotes. -/
def escapeChar (c : Char) : String :=
  match c with
  | '"' => "\\\""
  | '\\' => "\\\\"
  | '\n' => "\\n"
  | '\r' => "\\r"
  | '\t' => "\\t"
  | '\x08' => "\\b"
  | '\x0c' => "\\f"
  | _ =>
    if c.toNat < 0x20 then "\\u" ++ String.ofList (Text.padded 16 4 c.toNat)
    else String.singleton c

/-- A text between quotes. -/
def quote (s : String) : String :=
  "\"" ++ String.join (s.toList.map escapeChar) ++ "\""

/-- The text of a fraction; JSON has no text for values that are not finite. -/
def fractionText (bits : UInt64) : String :=
  match Decimal.double.magnitude bits.toNat with
  | .finite .. => fractionStyle.writeBits Decimal.double bits.toNat
  | _ => "null"

mutual

/-- The compact text of a value. -/
def render : Json → String
  | .null => "null"
  | .boolean value => if value then "true" else "false"
  | .integer value => toString value
  | .fraction bits => fractionText bits
  | .text value => quote value
  | .list items => "[" ++ renderItems items ++ "]"
  | .record members => "\x7b" ++ renderMembers members ++ "\x7d"

/-- The texts of items, with commas between them. -/
def renderItems : List Json → String
  | [] => ""
  | [item] => item.render
  | item :: next :: rest => item.render ++ "," ++ renderItems (next :: rest)

/-- The texts of members, with commas between them. -/
def renderMembers : List (String × Json) → String
  | [] => ""
  | [(name, value)] => quote name ++ ":" ++ value.render
  | (name, value) :: next :: rest =>
    quote name ++ ":" ++ value.render ++ "," ++ renderMembers (next :: rest)

end

end Json

end JavaStubs
