import JavaStubs.Json.Tree
import JavaStubs.Shape

/-!
# Decoding JSON texts

Decoders for the shapes that a model is made of: scalars, lists, records with defaulted fields, and
variants with and without contents. A record is written as an object, or as the list of its fields
in order; a variant without contents as its name, or as an object that has null under its name.

A decoder reports the first problem in the order of the text. `Problem` distinguishes flaws of form
from complaints about the shape, and both have a place. A complaint that is found only when a
record or list is left has its place where the enclosing bracket is looked for; until then the place
is `pending`.
-/
namespace JavaStubs.Json

open Shape (Complaint Found)

/-- Where a complaint is reported. -/
inductive Place where
  | settled (pos : Nat)
  /-- Where the enclosing list or record goes on after this place. -/
  | pending (after : Cursor)
  deriving DecidableEq, Repr

/-- Why a text cannot be decoded. -/
inductive Problem where
  | form (flaw : Flaw)
  | shape (complaint : Complaint) (place : Place)
  deriving DecidableEq, Repr

/-- The result of decoding. -/
abbrev Decoded (α : Type) := Except Problem α

/-- How JSON spells what was found. -/
def spelling : Shape.Spelling := ⟨"null", Json.fractionStyle⟩

namespace Problem

/-- A flaw of form. -/
def flawed {α : Type} (fault : Fault) (pos : Nat) : Decoded α :=
  .error (.form ⟨fault, pos⟩)

/-- A complaint at a known place. -/
def complain {α : Type} (complaint : Complaint) (pos : Nat) : Decoded α :=
  .error (.shape complaint (.settled pos))

/-- A pending place settled inside an object. -/
def settleInRecord : Problem → Problem
  | .shape complaint (.pending after) =>
    let here := after.skipSpace
    match here.rest with
    | '}' :: _ => .shape complaint (.settled (here.pos + 1))
    | _ => .shape complaint (.settled here.pos)
  | problem => problem

/-- A pending place settled inside a list. -/
def settleInList : Problem → Problem
  | .shape complaint (.pending after) =>
    let here := after.skipSpace
    match here.rest with
    | ']' :: _ => .shape complaint (.settled (here.pos + 1))
    | ',' :: _ => .shape complaint (.settled (here.advance 1).skipSpace.pos)
    | _ => .shape complaint (.settled here.pos)
  | problem => problem

end Problem

/-- What a scalar is called. -/
def Scalar.found : Scalar → Found
  | .null => .absent
  | .boolean value => .boolean value
  | .number (.integer value) => .integer value
  | .number (.fraction bits) => .fraction bits.toNat
  | .text value => .text value

namespace Ending

/-- Why nothing follows the last item of a list that is not closed. -/
def listFlaw : Ending → Flaw
  | .comma here =>
    if here.rest.isEmpty then here.flaw .endOfValue else here.flaw .trailingComma
  | .flawed flaw => flaw
  | .noKey here => here.flaw .expectedListCommaOrEnd
  | .closed after => ⟨.trailingCharacters, after.pos⟩
  | .unreached => ⟨.endOfList, 0⟩

/-- Why nothing follows the last member of an object that is not closed. -/
def recordFlaw : Ending → Flaw
  | .comma here =>
    match here.rest with
    | [] => here.flaw .endOfValue
    | '}' :: _ => here.flaw .trailingComma
    | _ => here.flaw .keyNotText
  | .noKey here => here.flaw (if here.rest.isEmpty then .endOfObject else .keyNotText)
  | .flawed flaw => flaw
  | .closed after => ⟨.trailingCharacters, after.pos⟩
  | .unreached => ⟨.endOfObject, 0⟩

/-- Why a list is not over when all its fields are there. -/
def surplusFlaw : Ending → Flaw
  | .comma here =>
    if here.rest.isEmpty then here.flaw .trailingCharacters else here.flaw .trailingComma
  | .flawed ⟨.expectedListCommaOrEnd, pos⟩ => ⟨.trailingCharacters, pos⟩
  | ending => ending.listFlaw

/-- Why a skipped list does not end. -/
def skippedListFlaw : Ending → Flaw
  | .comma here =>
    here.flaw (if here.rest.isEmpty then .endOfValue else .expectedValue)
  | ending => ending.listFlaw

/-- Why a skipped object does not end. -/
def skippedRecordFlaw : Ending → Flaw
  | .comma here | .noKey here =>
    here.flaw (if here.rest.isEmpty then .endOfObject else .keyNotText)
  | ending => ending.recordFlaw

end Ending

namespace Tree

/-- The place up to and including the first byte of the value. -/
def looked : Tree → Nat
  | .missing pos => pos
  | .stray pos => pos + 1
  | .blocked flaw => flaw.pos
  | .leaf token => token.start + 1
  | .list start _ _ => start + 1
  | .record start _ _ => start + 1

/-- The problem of a value that is not what was expected. -/
def mismatch (expected : String) : Tree → Problem
  | .missing pos => .form ⟨.endOfValue, pos⟩
  | .stray pos => .form ⟨.expectedValue, pos + 1⟩
  | .blocked flaw => .form flaw
  | .leaf token =>
    match token.strict with
    | .error flaw => .form flaw
    | .ok (scalar, after) => .shape (.wrongType scalar.found expected) (.settled after.pos)
  | .list start _ _ => .shape (.wrongType .sequence expected) (.settled start)
  | .record start _ _ => .shape (.wrongType .map expected) (.settled start)

mutual

/-- Checks the form of a value that is not used. -/
def skip : Tree → Decoded Unit
  | .missing pos => Problem.flawed .endOfValue pos
  | .stray pos => Problem.flawed .expectedValue (pos + 1)
  | .blocked flaw => .error (.form flaw)
  | .leaf token =>
    match token.loose with
    | .error flaw => .error (.form flaw)
    | .ok _ => .ok ()
  | .list _ items ending => do
    skipItems items
    match ending with
    | .closed _ => .ok ()
    | ending => .error (.form ending.skippedListFlaw)
  | .record _ members ending => do
    skipMembers members
    match ending with
    | .closed _ => .ok ()
    | ending => .error (.form ending.skippedRecordFlaw)

/-- Checks the form of items. -/
def skipItems : List Tree → Decoded Unit
  | [] => .ok ()
  | item :: rest => do
    item.skip
    skipItems rest

/-- Checks the form of members. -/
def skipMembers : List Member → Decoded Unit
  | [] => .ok ()
  | ⟨key, value, _⟩ :: rest => do
    match key.loose with
    | .error flaw => .error (.form flaw)
    | .ok _ =>
      value.skip
      skipMembers rest

end

end Tree

namespace Decode

/-- A scalar, with the place after it, of which `pick` makes a value. -/
def scalar {α : Type} (expected : String) (pick : Scalar → Nat → Option (Decoded α))
    (tree : Tree) : Decoded α :=
  match tree with
  | .leaf { strict := .ok (value, after), .. } =>
    (pick value after.pos).getD (.error (tree.mismatch expected))
  | _ => .error (tree.mismatch expected)

/-- A text. -/
def text : Tree → Decoded String :=
  scalar "a string" fun value _ =>
    match value with
    | .text s => some (.ok s)
    | _ => none

/-- A truth value. -/
def boolean : Tree → Decoded Bool :=
  scalar "a boolean" fun value _ =>
    match value with
    | .boolean b => some (.ok b)
    | _ => none

/-- A text of one character. -/
def character : Tree → Decoded Char :=
  scalar "a character" fun value pos =>
    match value with
    | .text s =>
      match s.toList with
      | [c] => some (.ok c)
      | _ => some (Problem.complain (.wrongValue (.text s) "a character") pos)
    | _ => none

/-- An integer of 64 bits with a sign. -/
def int64 : Tree → Decoded Int64 :=
  scalar "i64" fun value pos =>
    match value with
    | .number (.integer n) =>
      if -Int.pow 2 63 ≤ n ∧ n < Int.pow 2 63 then some (.ok (Int64.ofInt n))
      else some (Problem.complain (.wrongValue (.integer n) "i64") pos)
    | _ => none

/-- The double precision value of a number, by its bits. -/
def doubleOf : Number → UInt64
  | .integer n =>
    (if 0 ≤ n then n.toNat.toUInt64.toFloat else (Int64.ofInt n).toFloat).toBits
  | .fraction bits => bits

/-- The single precision value of a number, by its bits. -/
def singleOf : Number → UInt32
  | .integer n =>
    (if 0 ≤ n then n.toNat.toUInt64.toFloat32 else (Int64.ofInt n).toFloat32).toBits
  | .fraction bits => (Float.ofBits bits).toFloat32.toBits

/-- A double precision value, by its bits. -/
def double : Tree → Decoded UInt64 :=
  scalar "f64" fun value _ =>
    match value with
    | .number n => some (.ok (doubleOf n))
    | _ => none

/-- A single precision value, by its bits. -/
def single : Tree → Decoded UInt32 :=
  scalar "f32" fun value _ =>
    match value with
    | .number n => some (.ok (singleOf n))
    | _ => none

/-- Null, which stands for the absence of contents. -/
def nothing : Tree → Decoded Unit :=
  scalar "unit" fun value _ =>
    match value with
    | .null => some (.ok ())
    | _ => none

/-- Null, or a value; what begins like null is never taken for a value. -/
def optional {α : Type} (read : Tree → Decoded α) (tree : Tree) : Decoded (Option α) :=
  match tree with
  | .leaf { kind := .null, strict := .ok _, .. } => .ok none
  | .leaf { kind := .null, strict := .error flaw, .. } => .error (.form flaw)
  | _ => (read tree).map some

/-- A list of values. Without `mayEnter` the text is nested too deeply. -/
def list {α : Type} (mayEnter : Bool) (read : Tree → Decoded α) (tree : Tree) :
    Decoded (List α) :=
  match tree with
  | .list start items ending =>
    if mayEnter then
      match items.mapM read with
      | .error problem => .error problem.settleInList
      | .ok values =>
        match ending with
        | .closed _ => .ok values
        | ending => .error (.form ending.listFlaw)
    else Problem.flawed .tooDeep (start + 1)
  | _ => .error (tree.mismatch "a sequence")

end Decode

/-- A field of a record that is built as a `σ`. -/
structure Slot (σ : Type) where
  name : String
  /-- Whether the record needs the field. -/
  required : Bool
  /-- Reads the field and puts it into the record. -/
  read : Tree → Decoded (σ → σ)

namespace Slot

/-- A field that the record needs. -/
def needed {σ α : Type} (name : String) (read : Tree → Decoded α) (put : α → σ → σ) : Slot σ :=
  ⟨name, true, fun tree => (read tree).map put⟩

/-- A field with a default. -/
def defaulted {σ α : Type} (name : String) (read : Tree → Decoded α) (put : α → σ → σ) :
    Slot σ :=
  ⟨name, false, fun tree => (read tree).map put⟩

/-- Puts the members of an object into the record; `seen` are the names met before. The result
has the names met. -/
def readMembers {σ : Type} (slots : List (Slot σ)) :
    List Member → List String → σ → Decoded (List String × σ)
  | [], seen, value => .ok (seen, value)
  | ⟨key, tree, _⟩ :: rest, seen, value =>
    match key.strict with
    | .error flaw => .error (.form flaw)
    | .ok (name, after) =>
      match slots.find? (·.name == name) with
      | none => do
        tree.skip
        readMembers slots rest seen value
      | some slot =>
        if seen.contains name then .error (.shape (.duplicateField name) (.pending after))
        else do
          let put ← slot.read tree
          readMembers slots rest (name :: seen) (put value)

/-- The first field that the record needs and that was not met. -/
def missing? {σ : Type} (slots : List (Slot σ)) (seen : List String) : Option String :=
  (slots.find? fun slot => slot.required && !seen.contains slot.name).map (·.name)

/-- Puts the items of a list into the record, field by field; `index` counts the fields. -/
def readItems {σ : Type} (title : String) (count : Nat) (ending : Ending) :
    List (Slot σ) → List Tree → Nat → σ → Decoded σ
  | [], item :: _, _, _ => Problem.flawed .trailingCharacters item.looked
  | [], [], _, value =>
    match ending with
    | .closed _ => .ok value
    | ending => .error (.form ending.surplusFlaw)
  | slot :: slots, item :: items, index, value => do
    let put ← slot.read item
    readItems title count ending slots items (index + 1) (put value)
  | slot :: slots, [], index, value =>
    match ending with
    | .closed after =>
      if slot.required then
        Problem.complain (.wrongLength index (Shape.elements title count)) after.pos
      else readItems title count ending slots [] (index + 1) value
    | ending => .error (.form ending.listFlaw)

end Slot

/-- A record, built up from `initial`. -/
def Decode.record {σ : Type} (mayEnter : Bool) (title : String) (initial : σ)
    (slots : List (Slot σ)) (tree : Tree) : Decoded σ :=
  match tree with
  | .record start members ending =>
    if mayEnter then
      match Slot.readMembers slots members [] initial with
      | .error problem => .error problem.settleInRecord
      | .ok (seen, value) =>
        match ending with
        | .closed after =>
          match Slot.missing? slots seen with
          | some name => Problem.complain (.missingField name) after.pos
          | none => .ok value
        | ending => .error (.form ending.recordFlaw)
    else Problem.flawed .tooDeep (start + 1)
  | .list start items ending =>
    if mayEnter then
      match Slot.readItems title slots.length ending slots items 0 initial with
      | .error problem => .error problem.settleInList
      | .ok value => .ok value
    else Problem.flawed .tooDeep (start + 1)
  | _ => .error (tree.mismatch title)

/-- What a variant holds. -/
inductive Contents (α : Type) where
  | none (value : α)
  /-- Contents of a form of their own. -/
  | value (read : Tree → Decoded α)
  /-- Named fields. -/
  | fields (read : Tree → Decoded α)

/-- One of the forms of a value. -/
structure Variant (α : Type) where
  name : String
  contents : Contents α

namespace Variant

/-- A variant that is written as its name alone. -/
def readBare {α : Type} (variant : Variant α) (after : Cursor) : Decoded α :=
  match variant.contents with
  | .none value => .ok value
  | .value _ => .error (.shape (.wrongType .bareVariant "newtype variant") (.pending after))
  | .fields _ => .error (.shape (.wrongType .bareVariant "struct variant") (.pending after))

/-- The contents of a variant. -/
def readContents {α : Type} (variant : Variant α) (tree : Tree) : Decoded α :=
  match variant.contents with
  | .none value => (Decode.nothing tree).map fun _ => value
  | .value read => read tree
  | .fields read => read tree

/-- The variant of a name that ends at `pos`. -/
def choose {α : Type} (variants : List (Variant α)) (name : String) (pos : Nat) :
    Decoded (Variant α) :=
  match variants.find? (·.name == name) with
  | some variant => .ok variant
  | none => Problem.complain (.unknownVariant name (variants.map (·.name))) pos

end Variant

/-- One of several variants. -/
def Decode.oneOf {α : Type} (mayEnter : Bool) (variants : List (Variant α)) (tree : Tree) :
    Decoded α :=
  match tree with
  | .missing pos => Problem.flawed .endOfValue pos
  | .blocked flaw => .error (.form flaw)
  | .leaf { kind := .text, strict := .error flaw, .. } => .error (.form flaw)
  | .leaf { kind := .text, strict := .ok (.text name, after), .. } => do
    let variant ← Variant.choose variants name after.pos
    variant.readBare after
  | .record start members ending =>
    if mayEnter then
      match members, ending with
      | [], .closed after => Problem.flawed .expectedValue after.pos
      | [], .noKey here =>
        if here.rest.isEmpty then Problem.flawed .endOfValue here.pos
        else .error ((Tree.readAt here).mismatch "variant identifier")
      | [], ending => .error (.form ending.recordFlaw)
      | ⟨key, value, next⟩ :: rest, ending =>
        match key.strict with
        | .error flaw => .error (.form flaw)
        | .ok (name, after) => do
          let variant ← Variant.choose variants name after.pos
          let result ← variant.readContents value
          match rest, ending with
          | [], .closed _ => .ok result
          | _, _ =>
            if next.rest.isEmpty then Problem.flawed .endOfObject next.pos
            else Problem.flawed .expectedValue next.pos
    else Problem.flawed .tooDeep (start + 1)
  | tree => Problem.flawed .expectedValue tree.looked

/-- The deepest nesting of lists and objects that is read. -/
def depthLimit : Nat := 127

/-- Decodes a whole text. -/
def Decode.run {α : Type} (read : Tree → Decoded α) (text : String) : Decoded α := do
  let (tree, after) := Tree.read text
  let value ← read tree
  match after with
  | none => .ok value
  | some after =>
    let here := after.skipSpace
    if here.rest.isEmpty then .ok value
    else .error (.form (here.flaw .trailingCharacters))

end JavaStubs.Json
