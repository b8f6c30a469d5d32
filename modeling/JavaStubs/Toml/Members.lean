import JavaStubs.Toml.Value

/-!
# Building tables

A document fills tables in two ways: assignments put a value under a dotted key, and headers place a
table at a path. Both can fail, for instance when a key is taken. The way to a table may lead
through tables that are there already, unless they are complete; it makes those that are missing.
-/
namespace JavaStubs.Toml

/-- Where something is put: the keys on the way, and the key there. -/
structure KeyPath where
  parents : List Key
  last : Key
  deriving DecidableEq, Repr

/-- A value under a dotted key. -/
structure Assignment where
  path : KeyPath
  value : Value

/-- A header: the path of a table, and whether the table is one of several. -/
structure Header where
  path : KeyPath
  oneOfSeveral : Bool
  span : Span
  deriving DecidableEq, Repr

/-- Whether the way may lead through a table of the form, when it makes missing tables in the form
`made`. -/
def Form.admits (made : Form) : Form → Bool
  | .inPlace => false
  | .opened => made = .passed
  | .passed | .dotted => true

namespace Members

/-- The members with the one under a key changed, or with a new one at their end. -/
def alter (key : Key) (change : Option Member → Option Member) (members : List Member) :
    Option (List Member) :=
  if members.any (·.key.name == key.name) then
    members.mapM fun member => if member.key.name = key.name then change (some member) else member
  else do
    let member ← change none
    return members ++ [member]

/-- A value with the members of its table changed; of tables with headers the last one counts. The
change is told the form of the table. -/
def enter (made : Form) (change : Form → List Member → Option (List Member)) :
    Value → Option Value
  | .table span form members =>
    if made.admits form then (change form members).map (.table span form) else none
  | .list span true items =>
    match items.getLast? with
    | some (.table inner form members) =>
      (change form members).map fun members =>
        .list span true (items.dropLast ++ [.table inner form members])
    | _ => none
  | _ => none

/-- The members of a table of the form `form` with those of the table at a path changed. Missing
tables are made in the form `made`. -/
def descend (made : Form) (change : Form → List Member → Option (List Member)) :
    List Key → Form → List Member → Option (List Member)
  | [], form, members => change form members
  | key :: path, _, members =>
    alter key (fun
      | none => do
        let inner ← descend made change path made []
        return ⟨key, .table key.span made inner⟩
      | some member => do
        let value ← enter made (descend made change path) member.value
        return ⟨member.key, value⟩) members

/-- The members of a table with one more value. A dotted key ends in a table that was made by
dotted keys, a plain one in a table that was not. -/
def assign (members : List Member) (assignment : Assignment) : Option (List Member) :=
  let { parents, last } := assignment.path
  descend .dotted (fun form inside =>
    if (form == .dotted) == parents.isEmpty then none
    else alter last (fun
      | none => some ⟨last, assignment.value⟩
      | some _ => none) inside) parents .opened members

/-- The members that assignments make, added to those that are there. -/
def assignAll (members : List Member) (assignments : List Assignment) : Option (List Member) :=
  assignments.foldlM assign members

/-- What stands under the last key of a header after it, filled by assignments. A table that is only
on the way to others can be given its header later; a table with a header cannot be given a second
one. -/
def openTable (header : Header) (assignments : List Assignment) (known : Option Member) :
    Option Member :=
  let table (inside : List Member) : Option Value :=
    (assignAll inside assignments).map (.table header.span .opened)
  let last := header.path.last
  match header.oneOfSeveral, known with
  | false, none => (table []).map (Member.mk last)
  | false, some ⟨_, .table _ .passed inside⟩ => (table inside).map (Member.mk last)
  | true, none => (table []).map fun first => ⟨last, .list header.span true [first]⟩
  | true, some ⟨key, .list span true items⟩ =>
    (table []).map fun next => ⟨key, .list span true (items ++ [next])⟩
  | _, _ => none

/-- The members of a document with one more table under a header, filled by assignments. -/
def place (members : List Member) (header : Header) (assignments : List Assignment) :
    Option (List Member) :=
  let { parents, last } := header.path
  descend .passed (fun _ inside => alter last (openTable header assignments) inside)
    parents .opened members

end Members

end JavaStubs.Toml
