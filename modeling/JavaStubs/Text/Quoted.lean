import JavaStubs.Text.Mark
import JavaStubs.Text.Printable

/-!
# Quoted text in messages

A message shows a text between double quotes. Quotes, backslashes and the common controls are
escaped by name, and a character that would not show is given by its code point, so that a reader
can tell any two texts apart.
-/
namespace JavaStubs.Text

/-- One character of a quoted text. -/
def quotedChar (c : Char) : String :=
  match c with
  | '\x00' => "\\0"
  | '\t' => "\\t"
  | '\n' => "\\n"
  | '\r' => "\\r"
  | '"' => "\\\""
  | '\\' => "\\\\"
  | _ =>
    if isExtendingMark c || !isPrintable c then
      "\\u\x7b" ++ String.ofList (Nat.toDigits 16 c.toNat) ++ "\x7d"
    else String.singleton c

/-- The text between double quotes, escaped. -/
def quoted (s : String) : String :=
  "\"" ++ String.join (s.toList.map quotedChar) ++ "\""

end JavaStubs.Text
