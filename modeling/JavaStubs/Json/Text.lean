import JavaStubs.Json.Flaw
import JavaStubs.Text.Digit

/-!
# JSON texts

A text between quotes, with escapes. A text that is skipped is only checked for its form: its
surrogate escapes need not be paired.
-/
namespace JavaStubs.Json.Text

/-- The character that a one-letter escape stands for. -/
def simpleEscape? : Char → Option Char
  | '"' => some '"'
  | '\\' => some '\\'
  | '/' => some '/'
  | 'b' => some '\x08'
  | 'f' => some '\x0c'
  | 'n' => some '\n'
  | 'r' => some '\r'
  | 't' => some '\t'
  | _ => none

/-- The number of four hexadecimal digits. -/
def unit? (a b c d : Char) : Option Nat :=
  Text.number? 16 [a, b, c, d]

/-- The flaw of an escape whose four hexadecimal digits, due at `pos`, are not there. -/
def unitFlaw (pos : Nat) (rest : List Char) : Flaw :=
  let left := Text.byteLength rest
  if 4 ≤ left then ⟨.badEscape, pos + 4⟩ else ⟨.endOfText, pos + left⟩

/-- Whether a UTF-16 unit is the first of a pair. -/
def isLeading (unit : Nat) : Bool := 0xD800 ≤ unit && unit ≤ 0xDBFF

/-- Whether a UTF-16 unit is the second of a pair. -/
def isTrailing (unit : Nat) : Bool := 0xDC00 ≤ unit && unit ≤ 0xDFFF

/-- The place after the closing quote of a text that is skipped; the cursor is after its opening
quote. -/
def skip : Nat → List Char → Except Flaw Cursor
  | pos, [] => .error ⟨.endOfText, pos⟩
  | pos, '"' :: rest => .ok ⟨pos + 1, rest⟩
  | pos, ['\\'] => .error ⟨.endOfText, pos + 1⟩
  | pos, '\\' :: 'u' :: a :: b :: c :: d :: rest =>
    match unit? a b c d with
    | some _ => skip (pos + 6) rest
    | none => .error (unitFlaw (pos + 2) (a :: b :: c :: d :: rest))
  | pos, '\\' :: 'u' :: rest => .error (unitFlaw (pos + 2) rest)
  | pos, '\\' :: c :: rest =>
    match simpleEscape? c with
    | some _ => skip (pos + 2) rest
    | none => .error ⟨.badEscape, pos + 2⟩
  | pos, c :: rest =>
    if c.toNat < 0x20 then .error ⟨.controlCharacter, pos⟩
    else skip (pos + c.utf8Size) rest

/-- The characters up to the closing quote, after those of `done` in reverse, and the place after
it; the cursor is after the opening quote. -/
def readFrom (done : List Char) : Nat → List Char → Except Flaw (String × Cursor)
  | pos, [] => .error ⟨.endOfText, pos⟩
  | pos, '"' :: rest => .ok (String.ofList done.reverse, ⟨pos + 1, rest⟩)
  | pos, ['\\'] => .error ⟨.endOfText, pos + 1⟩
  | pos, '\\' :: 'u' :: a :: b :: c :: d :: rest =>
    match unit? a b c d with
    | none => .error (unitFlaw (pos + 2) (a :: b :: c :: d :: rest))
    | some unit =>
      if isTrailing unit then .error ⟨.loneSurrogate, pos + 6⟩
      else if !isLeading unit then readFrom (Char.ofNat unit :: done) (pos + 6) rest
      else match rest with
        | [] => .error ⟨.endOfText, pos + 6⟩
        | ['\\'] => .error ⟨.endOfText, pos + 7⟩
        | '\\' :: 'u' :: e :: f :: g :: h :: rest =>
          match unit? e f g h with
          | none => .error (unitFlaw (pos + 8) (e :: f :: g :: h :: rest))
          | some second =>
            if isTrailing second then
              let code := (unit - 0xD800) * 0x400 + (second - 0xDC00) + 0x10000
              readFrom (Char.ofNat code :: done) (pos + 12) rest
            else .error ⟨.loneSurrogate, pos + 12⟩
        | '\\' :: 'u' :: rest => .error (unitFlaw (pos + 8) rest)
        | '\\' :: _ => .error ⟨.unpairedSurrogate, pos + 8⟩
        | _ => .error ⟨.unpairedSurrogate, pos + 7⟩
  | pos, '\\' :: 'u' :: rest => .error (unitFlaw (pos + 2) rest)
  | pos, '\\' :: c :: rest =>
    match simpleEscape? c with
    | some plain => readFrom (plain :: done) (pos + 2) rest
    | none => .error ⟨.badEscape, pos + 2⟩
  | pos, c :: rest =>
    if c.toNat < 0x20 then .error ⟨.controlCharacter, pos + 1⟩
    else readFrom (c :: done) (pos + c.utf8Size) rest

/-- The characters of a text, and the place after it; the cursor is after the opening quote. -/
def read (here : Cursor) : Except Flaw (String × Cursor) :=
  readFrom [] here.pos here.rest

end JavaStubs.Json.Text
