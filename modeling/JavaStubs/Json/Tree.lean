import JavaStubs.Json.Number
import JavaStubs.Json.Text
import JavaStubs.Json.Value

/-!
# Syntax trees of JSON texts

A tree holds what a text says together with the places that an error report needs. Reading never
fails: where the text stops being JSON the tree ends, and the place and kind of the flaw are kept in
it. So a decoder that walks the tree in the order of the text meets flaws of form and of shape in
that order, whatever comes first.

A text or number is kept with two readings. The strict one has its value; the loose one only finds
its end, and accepts some texts and numbers that have no value.
-/
namespace JavaStubs.Json

/-- What a leaf begins like. -/
inductive LeafKind where
  | null
  | boolean
  | number
  | text
  deriving DecidableEq, Repr

/-- The value of a leaf. -/
inductive Scalar where
  | null
  | boolean (value : Bool)
  | number (value : Number)
  | text (value : String)
  deriving DecidableEq, Repr

/-- A word, number or text. -/
structure Leaf where
  kind : LeafKind
  start : Nat
  /-- The value and the place after it. -/
  strict : Except Flaw (Scalar × Cursor)
  /-- The place after the leaf. -/
  loose : Except Flaw Cursor

/-- The name of a member. -/
structure Key where
  /-- The name and the place after it. -/
  strict : Except Flaw (String × Cursor)
  /-- The place after the name. -/
  loose : Except Flaw Cursor

/-- How a list or an object ends. -/
inductive Ending where
  /-- With its bracket. -/
  | closed (after : Cursor)
  /-- With a comma, and no item or member at the place after it. -/
  | comma (here : Cursor)
  /-- An object without members, with neither a name nor its bracket at the place. -/
  | noKey (here : Cursor)
  /-- With something that is neither a comma nor a bracket. -/
  | flawed (flaw : Flaw)
  /-- Its last item or member has no end. -/
  | unreached

/-- The place after the bracket. -/
def Ending.after? : Ending → Option Cursor
  | .closed after => some after
  | _ => none

mutual

inductive Tree where
  /-- The text ends where a value is due. -/
  | missing (pos : Nat)
  /-- The character at this place begins no value. -/
  | stray (pos : Nat)
  /-- The value cannot be reached. -/
  | blocked (flaw : Flaw)
  | leaf (leaf : Leaf)
  | list (start : Nat) (items : List Tree) (ending : Ending)
  | record (start : Nat) (members : List Member) (ending : Ending)

/-- A member of an object. -/
structure Member where
  key : Key
  value : Tree
  /-- The next token after the value, if the value has an end. -/
  next : Cursor

end

instance : Inhabited Tree := ⟨.missing 0⟩

namespace Tree

/-- A word that should read `rest` after its first letter. -/
def word (kind : LeafKind) (here : Cursor) (rest : List Char) (value : Scalar) : Leaf :=
  let rec spell (pos : Nat) : List Char → List Char → Except Flaw Cursor
    | [], left => .ok ⟨pos, left⟩
    | _ :: _, [] => .error ⟨.endOfValue, pos⟩
    | c :: expected, d :: left =>
      if c = d then spell (pos + 1) expected left else .error ⟨.expectedWord, pos + 1⟩
  let after := spell (here.pos + 1) rest (here.rest.drop 1)
  ⟨kind, here.pos, after.map fun cursor => (value, cursor), after⟩

/-- A number. -/
def numeral (here : Cursor) : Leaf :=
  match Numeral.read here with
  | .error flaw => ⟨.number, here.pos, .error flaw.strict, .error flaw.loose⟩
  | .ok (numeral, after) =>
    ⟨.number, here.pos, (numeral.value after.pos).map fun value => (.number value, after),
      .ok after⟩

/-- A text, with its opening quote at the cursor. -/
def quoted (here : Cursor) : Leaf :=
  let inside := here.advance 1
  ⟨.text, here.pos, (Text.read inside).map fun (value, after) => (.text value, after),
    Text.skip inside.pos inside.rest⟩

/-- The name of a member, with its opening quote at the cursor. -/
def key (here : Cursor) : Key :=
  let inside := here.advance 1
  ⟨Text.read inside, Text.skip inside.pos inside.rest⟩

mutual

/-- The value at a place, and the place after it if it has an end. The fuel bounds the nesting
of calls; four times the number of characters left is enough. -/
def value : Nat → Cursor → Tree × Option Cursor
  | 0, here => (.missing here.pos, none)
  | fuel + 1, here =>
    let here := here.skipSpace
    let ofLeaf (leaf : Leaf) : Tree × Option Cursor := (.leaf leaf, leaf.loose.toOption)
    match here.rest with
    | [] => (.missing here.pos, none)
    | '[' :: _ =>
      let (items, ending) := listItems fuel (here.advance 1) true
      (.list here.pos items ending, ending.after?)
    | '{' :: _ =>
      let (members, ending) := objectMembers fuel (here.advance 1) true
      (.record here.pos members ending, ending.after?)
    | '"' :: _ => ofLeaf (quoted here)
    | 'n' :: _ => ofLeaf (word .null here ['u', 'l', 'l'] .null)
    | 't' :: _ => ofLeaf (word .boolean here ['r', 'u', 'e'] (.boolean true))
    | 'f' :: _ => ofLeaf (word .boolean here ['a', 'l', 's', 'e'] (.boolean false))
    | c :: _ =>
      if c = '-' || c.isDigit then ofLeaf (numeral here) else (.stray here.pos, none)

/-- The items of a list from a place on. -/
def listItems : Nat → Cursor → Bool → List Tree × Ending
  | 0, _, _ => ([], .unreached)
  | fuel + 1, here, first =>
    let here := here.skipSpace
    match here.rest with
    | [] => ([], .flawed (here.flaw .endOfList))
    | ']' :: _ => ([], .closed (here.advance 1))
    | c :: _ =>
      if first then listItem fuel here
      else if c = ',' then
        let here := (here.advance 1).skipSpace
        match here.rest with
        | [] | ']' :: _ => ([], .comma here)
        | _ => listItem fuel here
      else ([], .flawed (here.flaw .expectedListCommaOrEnd))

/-- An item and those after it. -/
def listItem : Nat → Cursor → List Tree × Ending
  | 0, _ => ([], .unreached)
  | fuel + 1, here =>
    match value fuel here with
    | (item, none) => ([item], .unreached)
    | (item, some after) =>
      let (items, ending) := listItems fuel after false
      (item :: items, ending)

/-- The members of an object from a place on. -/
def objectMembers : Nat → Cursor → Bool → List Member × Ending
  | 0, _, _ => ([], .unreached)
  | fuel + 1, here, first =>
    let here := here.skipSpace
    match here.rest with
    | '}' :: _ => ([], .closed (here.advance 1))
    | '"' :: _ => if first then objectMember fuel here
      else ([], .flawed (here.flaw .expectedObjectCommaOrEnd))
    | c :: _ =>
      if first then ([], .noKey here)
      else if c = ',' then
        let here := (here.advance 1).skipSpace
        match here.rest with
        | '"' :: _ => objectMember fuel here
        | _ => ([], .comma here)
      else ([], .flawed (here.flaw .expectedObjectCommaOrEnd))
    | [] => if first then ([], .noKey here) else ([], .flawed (here.flaw .endOfObject))

/-- A member and those after it; the quote of its name is at the cursor. -/
def objectMember : Nat → Cursor → List Member × Ending
  | 0, _ => ([], .unreached)
  | fuel + 1, here =>
    let key := key here
    match key.loose with
    | .error flaw => ([⟨key, .blocked flaw, here⟩], .unreached)
    | .ok after =>
      let colon := after.skipSpace
      match colon.rest with
      | ':' :: _ =>
        match value fuel (colon.advance 1) with
        | (item, none) => ([⟨key, item, here⟩], .unreached)
        | (item, some after) =>
          let (members, ending) := objectMembers fuel after false
          (⟨key, item, after.skipSpace⟩ :: members, ending)
      | [] => ([⟨key, .blocked (colon.flaw .endOfObject), here⟩], .unreached)
      | _ => ([⟨key, .blocked (colon.flaw .expectedColon), here⟩], .unreached)

end

/-- The value that a text begins with, and the place after it if it has an end. -/
def read (text : String) : Tree × Option Cursor :=
  value (4 * text.length + 4) (Cursor.start text)

/-- The value at a place. -/
def readAt (here : Cursor) : Tree :=
  (value (4 * here.rest.length + 4) here).1

end Tree

end JavaStubs.Json
