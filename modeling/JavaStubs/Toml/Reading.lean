import JavaStubs.Toml.Members
import JavaStubs.Toml.Moment
import JavaStubs.Toml.Number
import JavaStubs.Toml.Text

/-!
# Reading keys and values

Readers take a cursor and give what stands there with the place after it, or nothing if something
else stands there. Nothing is said of why a text cannot be read.

Lists and tables in place may be nested as deeply as `nestingLimit` says, and `value?` is
structurally recursive on what is left of it. The loops over their items are bounded by the number
of characters left, of which every item takes at least one.
-/
namespace JavaStubs.Toml

/-- The deepest nesting of lists and tables in place. A dotted key has at most as many keys. -/
def nestingLimit : Nat := 80

/-- The place after spaces and tabs. -/
def skipBlanks (here : Cursor) : Cursor := (here.span isBlank).2

/-- The place after blanks, newlines and comments, if every comment is well formed and ends with a
newline or with the text. -/
def skipGap (inComment : Bool) (pos : Nat) : List Char → Option Cursor
  | [] => some ⟨pos, []⟩
  | '\n' :: rest => skipGap false (pos + 1) rest
  | '\r' :: '\n' :: rest => skipGap false (pos + 2) rest
  | c :: rest =>
    if inComment then if isPlain c then skipGap true (pos + c.utf8Size) rest else none
    else if c = '#' then skipGap true (pos + 1) rest
    else if isBlank c then skipGap false (pos + 1) rest
    else some ⟨pos, c :: rest⟩

/-- The place after blanks, newlines and comments. -/
def gap? (here : Cursor) : Option Cursor := skipGap false here.pos here.rest

/-- The place after a character that is due. -/
def after? (due : Char) (here : Cursor) : Option Cursor :=
  match here.rest with
  | c :: _ => if c = due then some (here.advance 1) else none
  | [] => none

/-- Whether the character may stand in a key without quotes. -/
def isBareKeyChar (c : Char) : Bool := c.isAlphanum || c == '_' || c == '-'

/-- A key without dots. -/
def key? (here : Cursor) : Option (Key × Cursor) :=
  match here.span isBareKeyChar with
  | ([], _) => do
    let (name, after) ← Text.readLine? here
    return (⟨name, .between here after⟩, after)
  | (name, after) => some (⟨String.ofList name, .between here after⟩, after)

/-- A dotted key after the keys `parents`, given in reverse; blanks may stand around dots. The fuel
bounds the number of keys on the way. -/
def keyPathFrom (parents : List Key) : Nat → Cursor → Option (KeyPath × Cursor)
  | fuel, here => do
    let (key, after) ← key? here
    match after? '.' (skipBlanks after), fuel with
    | none, _ => return (⟨parents.reverse, key⟩, after)
    | some _, 0 => none
    | some next, fuel + 1 => keyPathFrom (key :: parents) fuel (skipBlanks next)

/-- A dotted key. -/
def keyPath? (here : Cursor) : Option (KeyPath × Cursor) := keyPathFrom [] (nestingLimit - 1) here

/-- Whether the character may stand in a value without quotes and brackets. -/
def isTokenChar (c : Char) : Bool :=
  c.isAlphanum || ['+', '-', '.', ':', '_'].contains c

/-- A word, number, date or time. -/
def scalarOf? (token : List Char) : Option Scalar :=
  if token = ['t', 'r', 'u', 'e'] then some (.boolean true)
  else if token = ['f', 'a', 'l', 's', 'e'] then some (.boolean false)
  else if Moment.isMoment token then some .moment
  else (Number.read? token).map .number

/-- The characters of a value without quotes and brackets. A date and a time of day that are
separated by a space are one value. -/
def token (here : Cursor) : List Char × Cursor :=
  let (first, after) := here.span isTokenChar
  match after.rest with
  | ' ' :: c :: _ =>
    if Moment.isDate first && c.isDigit then
      let (second, after) := (after.advance 1).span isTokenChar
      (first ++ ' ' :: second, after)
    else (first, after)
  | _ => (first, after)

/-- Items of a list up to its bracket; the cursor is where an item or the bracket is due. -/
def items? (item? : Cursor → Option (Value × Cursor)) : Nat → Cursor → Option (List Value × Cursor)
  | 0, _ => none
  | fuel + 1, here => do
    let here ← gap? here
    match after? ']' here with
    | some after => return ([], after)
    | none =>
      let (item, after) ← item? here
      let after ← gap? after
      match after? ',' after with
      | none => return ([item], ← after? ']' after)
      | some next =>
        let (items, after) ← items? item? fuel next
        return (item :: items, after)

/-- A value under a dotted key. -/
def assignment? (item? : Cursor → Option (Value × Cursor)) (here : Cursor) :
    Option (Assignment × Cursor) := do
  let (path, after) ← keyPath? here
  let (value, after) ← item? (skipBlanks (← after? '=' (skipBlanks after)))
  return (⟨path, value⟩, after)

/-- Assignments of a table in place up to its brace; the cursor is where an assignment or the brace
is due. -/
def assignments? (item? : Cursor → Option (Value × Cursor)) :
    Nat → Cursor → Option (List Assignment × Cursor)
  | 0, _ => none
  | fuel + 1, here => do
    let here ← gap? here
    match after? '}' here with
    | some after => return ([], after)
    | none =>
      let (assignment, after) ← assignment? item? here
      let after ← gap? after
      match after? ',' after with
      | none => return ([assignment], ← after? '}' after)
      | some next =>
        let (assignments, after) ← assignments? item? fuel next
        return (assignment :: assignments, after)

/-- A value that is nested no deeper than `depth`. -/
def value? (depth : Nat) (here : Cursor) : Option (Value × Cursor) :=
  match here.rest, depth with
  | '"' :: _, _ | '\'' :: _, _ => do
    let (content, after) ← Text.read? here
    return (.scalar (.between here after) (.text content), after)
  | '[' :: _, depth + 1 => do
    let (items, after) ← items? (value? depth) here.rest.length (here.advance 1)
    return (.list (.between here after) false items, after)
  | '{' :: _, depth + 1 => do
    let (assignments, after) ← assignments? (value? depth) here.rest.length (here.advance 1)
    let members ← Members.assignAll [] assignments
    return (.table (.between here after) .inPlace members, after)
  | _, _ => do
    let (characters, after) := token here
    let scalar ← scalarOf? characters
    return (.scalar (.between here after) scalar, after)

end JavaStubs.Toml
