import JavaStubs.Cursor

/-!
# Flaws of JSON texts

What can be wrong with the form of a text. A flaw is reported at the number of bytes up to and
including the byte that is at fault.
-/
namespace JavaStubs.Json

/-- What can be wrong with the form of a text. -/
inductive Fault where
  | endOfList
  | endOfObject
  | endOfText
  | endOfValue
  | expectedColon
  | expectedListCommaOrEnd
  | expectedObjectCommaOrEnd
  | expectedWord
  | expectedValue
  | badEscape
  | badNumber
  | numberOutOfRange
  | controlCharacter
  | keyNotText
  | loneSurrogate
  | unpairedSurrogate
  | trailingComma
  | trailingCharacters
  | tooDeep
  deriving DecidableEq, Repr

/-- The wording of a fault. -/
def Fault.message : Fault → String
  | .endOfList => "EOF while parsing a list"
  | .endOfObject => "EOF while parsing an object"
  | .endOfText => "EOF while parsing a string"
  | .endOfValue => "EOF while parsing a value"
  | .expectedColon => "expected `:`"
  | .expectedListCommaOrEnd => "expected `,` or `]`"
  | .expectedObjectCommaOrEnd => "expected `,` or `\x7d`"
  | .expectedWord => "expected ident"
  | .expectedValue => "expected value"
  | .badEscape => "invalid escape"
  | .badNumber => "invalid number"
  | .numberOutOfRange => "number out of range"
  | .controlCharacter => "control character (\\u0000-\\u001F) found while parsing a string"
  | .keyNotText => "key must be a string"
  | .loneSurrogate => "lone leading surrogate in hex escape"
  | .unpairedSurrogate => "unexpected end of hex escape"
  | .trailingComma => "trailing comma"
  | .trailingCharacters => "trailing characters"
  | .tooDeep => "recursion limit exceeded"

/-- Whether the text ends too early. -/
def Fault.isEnd : Fault → Bool
  | .endOfList | .endOfObject | .endOfText | .endOfValue => true
  | _ => false

/-- A fault and the number of bytes up to its place. -/
structure Flaw where
  fault : Fault
  pos : Nat
  deriving DecidableEq, Repr

end JavaStubs.Json

namespace JavaStubs.Cursor

open Json (Fault Flaw)

/-- The place up to and including the byte that stands at the cursor. -/
def looked (here : Cursor) : Nat :=
  if here.rest.isEmpty then here.pos else here.pos + 1

/-- Whether JSON allows the character between tokens. -/
def isSpace (c : Char) : Bool :=
  c == ' ' || c == '\n' || c == '\t' || c == '\r'

/-- The place after spaces; each of them is one byte. -/
def skipSpace (here : Cursor) : Cursor :=
  let spaces := here.rest.takeWhile isSpace
  ⟨here.pos + spaces.length, here.rest.dropWhile isSpace⟩

/-- The flaw that the byte at the cursor makes. -/
def flaw (here : Cursor) (fault : Fault) : Flaw := ⟨fault, here.looked⟩

end JavaStubs.Cursor
