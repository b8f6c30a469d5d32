import JavaStubs.Cursor
import JavaStubs.Text.Digit

/-!
# TOML texts

A text is written between double quotes, with escapes, or between single quotes, as it is. Three
quotes on either side let it run over several lines; then the newline right after the opening quotes
is left out, and so are a newline after a backslash and all blanks and newlines that follow it.
-/
namespace JavaStubs.Toml

/-- A space or a tab. -/
def isBlank (c : Char) : Bool := c == ' ' || c == '\t'

/-- Whether the character may stand in texts and comments as it is. -/
def isPlain (c : Char) : Bool := c == '\t' || (0x20 ≤ c.toNat && c.toNat ≠ 0x7f)

/-- The characters after a newline, with the number of bytes that it has. -/
def newline? : List Char → Option (Nat × List Char)
  | '\n' :: rest => some (1, rest)
  | '\r' :: '\n' :: rest => some (2, rest)
  | _ => none

namespace Text

/-- Where a reader stands in a text between double quotes. -/
inductive Mode where
  /-- Among plain characters; blanks and newlines are left out if `trimming`. -/
  | plain (trimming : Bool)
  /-- After a backslash. -/
  | escape
  /-- After a backslash and blanks that should end the line. -/
  | lineEnd
  /-- Before the last hexadecimal digits of a character, `left` and one more. -/
  | code (left value : Nat)
  deriving DecidableEq, Repr

/-- What the character after a backslash leads to: a mode and perhaps a character of the text. -/
def escape? : Char → Option (Mode × Option Char)
  | '"' => some (.plain false, '"')
  | '\\' => some (.plain false, '\\')
  | 'b' => some (.plain false, '\x08')
  | 'e' => some (.plain false, '\x1b')
  | 'f' => some (.plain false, '\x0c')
  | 'n' => some (.plain false, '\n')
  | 'r' => some (.plain false, '\r')
  | 't' => some (.plain false, '\t')
  | 'x' => some (.code 1 0, none)
  | 'u' => some (.code 3 0, none)
  | 'U' => some (.code 7 0, none)
  | _ => none

/-- What a character leads to: a mode and perhaps a character of the text. -/
def Mode.next? (mode : Mode) (lines : Bool) (c : Char) : Option (Mode × Option Char) :=
  match mode with
  | .plain trimming =>
    if c = '\\' then some (.escape, none)
    else if trimming && isBlank c then some (.plain true, none)
    else if isPlain c then some (.plain false, c)
    else none
  | .escape => if lines && isBlank c then some (.lineEnd, none) else escape? c
  | .lineEnd => if isBlank c then some (.lineEnd, none) else none
  | .code left value => do
    let value ← Text.appendDigit? 16 value c
    match left with
    | left + 1 => return (.code left value, none)
    | 0 => if value.isValidChar then return (.plain false, some (Char.ofNat value)) else none

/-- What a newline leads to, and whether it belongs to the text. -/
def Mode.newline? : Mode → Option (Mode × Bool)
  | .plain false => some (.plain false, true)
  | .plain true => some (.plain true, false)
  | .escape | .lineEnd => some (.plain true, false)
  | .code .. => none

/-- The quotes among the next two characters: three quotes end a text, and up to two more may stand
right before them. -/
def extraQuotes (quote : Char) (s : List Char) : Nat :=
  ((s.take 2).takeWhile (· == quote)).length

/-- The text of the characters in reverse, with quotes at its end. -/
def finish (done : List Char) (quote : Char) (extra : Nat) : String :=
  String.ofList (done.reverse ++ List.replicate extra quote)

/-- The characters up to the closing double quote, and the place after it. -/
def readEscaped (mode : Mode) (done : List Char) (pos : Nat) : List Char → Option (String × Cursor)
  | [] => none
  | c :: rest =>
    if c = '"' ∧ mode = .plain false then some (finish done '"' 0, ⟨pos + 1, rest⟩)
    else do
      let (mode, char) ← mode.next? false c
      readEscaped mode (char.toList ++ done) (pos + c.utf8Size) rest

/-- The characters up to the three closing double quotes, and the place after them. -/
def readEscapedLines (mode : Mode) (done : List Char) (pos : Nat) :
    List Char → Option (String × Cursor)
  | [] => none
  | '\r' :: '\n' :: rest => do
    let (mode, kept) ← mode.newline?
    readEscapedLines mode (if kept then '\n' :: '\r' :: done else done) (pos + 2) rest
  | c :: rest =>
    if c = '\n' then do
      let (mode, kept) ← mode.newline?
      readEscapedLines mode (if kept then '\n' :: done else done) (pos + 1) rest
    else if mode matches .plain _ ∧ ['"', '"', '"'].isPrefixOf (c :: rest) then
      let rest := rest.drop 2
      let extra := extraQuotes '"' rest
      some (finish done '"' extra, ⟨pos + 3 + extra, rest.drop extra⟩)
    else do
      let (mode, char) ← mode.next? true c
      readEscapedLines mode (char.toList ++ done) (pos + c.utf8Size) rest

/-- The characters up to the closing single quote, and the place after it. -/
def readLiteral (here : Cursor) : Option (String × Cursor) :=
  let (content, after) := here.span fun c => isPlain c && c != '\''
  match after.rest with
  | '\'' :: _ => some (String.ofList content, after.advance 1)
  | _ => none

/-- The characters up to the three closing single quotes, and the place after them. -/
def readLiteralLines (done : List Char) (pos : Nat) : List Char → Option (String × Cursor)
  | [] => none
  | '\r' :: '\n' :: rest => readLiteralLines ('\n' :: '\r' :: done) (pos + 2) rest
  | c :: rest =>
    if ['\'', '\'', '\''].isPrefixOf (c :: rest) then
      let rest := rest.drop 2
      let extra := extraQuotes '\'' rest
      some (finish done '\'' extra, ⟨pos + 3 + extra, rest.drop extra⟩)
    else if c = '\n' || isPlain c then readLiteralLines (c :: done) (pos + c.utf8Size) rest
    else none

/-- The place after a newline, if one stands at the cursor. -/
def afterNewline (here : Cursor) : Cursor :=
  match newline? here.rest with
  | some (width, rest) => ⟨here.pos + width, rest⟩
  | none => here

/-- A text on one line, if a quote stands at the cursor, and the place after it. -/
def readLine? (here : Cursor) : Option (String × Cursor) :=
  match here.rest with
  | '"' :: rest => readEscaped (.plain false) [] (here.pos + 1) rest
  | '\'' :: _ => readLiteral (here.advance 1)
  | _ => none

/-- A text, if a quote stands at the cursor, and the place after it. -/
def read? (here : Cursor) : Option (String × Cursor) :=
  match here.rest with
  | '"' :: '"' :: '"' :: _ =>
    let inside := afterNewline (here.advance 3)
    readEscapedLines (.plain false) [] inside.pos inside.rest
  | '\'' :: '\'' :: '\'' :: _ =>
    let inside := afterNewline (here.advance 3)
    readLiteralLines [] inside.pos inside.rest
  | _ => readLine? here

end Text

end JavaStubs.Toml
