import JavaStubs.Files.Disk
import JavaStubs.Table

/-!
# File trees

A tree of files as a value, so that what the program does with files can be followed step by step.
An entry stands at a place, the names on the way to it from the root. A path leads from the working
directory to a place: two dots go one directory back, and a symbolic link is replaced by its target.

Paths and names are as long as the usual limits allow, and a path follows at most forty links.
-/
namespace JavaStubs.Files

/-- The names on the way from the root. -/
abbrev Place := List String

/-- What stands at a place. -/
inductive Entry where
  | file (bytes : ByteArray)
  | directory
  | link (target : String)
  /-- A device that takes no bytes. -/
  | fullDevice

/-- Whether the entry is a directory. -/
def Entry.isDirectory : Entry → Bool
  | .directory => true
  | _ => false

/-- Entries at places, and the place where relative paths begin. -/
structure FileTree where
  entries : Table Place Entry
  workingDirectory : Place

/-- What the last piece of a path is. -/
inductive LastPiece where
  /-- There is none: the path is the root. -/
  | root
  | here
  | up
  | name (name : String)
  deriving DecidableEq, Repr

/-- Where a path leads: the last piece, in the directory before it. -/
structure Spot where
  directory : Place
  last : LastPiece
  /-- Whether a slash follows, so that only a directory is meant. -/
  slash : Bool
  deriving DecidableEq, Repr

/-- The place of a spot. -/
def Spot.place (spot : Spot) : Place :=
  match spot.last with
  | .root | .here => spot.directory
  | .up => spot.directory.dropLast
  | .name name => spot.directory ++ [name]

namespace FileTree

/-- The longest name, in bytes. -/
def nameLimit : Nat := 255

/-- The number of bytes that a path must stay below. -/
def pathLimit : Nat := 4096

/-- The number of links that a path may follow. -/
def linkLimit : Nat := 40

/-- The entry at a place. -/
def entry? (tree : FileTree) (place : Place) : Option Entry :=
  if place = [] then some .directory else tree.entries.get? place

/-- The tree with an entry at a place. -/
def put (tree : FileTree) (place : Place) (entry : Entry) : FileTree :=
  { tree with entries := tree.entries.put place entry }

/-- The tree without the entry at a place. -/
def erase (tree : FileTree) (place : Place) : FileTree :=
  { tree with entries := tree.entries.erase place }

/-- The names in a directory. -/
def children (tree : FileTree) (place : Place) : List String :=
  tree.entries.keys.filterMap fun key =>
    if key.dropLast = place then key.getLast? else none

/-- Where a path begins, and its pieces; a relative one begins at `here`. -/
def setOut (here : Place) (path : Path) : Place × List String :=
  if path.isAbsolute then ([], path.pieces.drop 1) else (here, path.pieces)

/-- Follows pieces from a directory. The last piece is taken as it stands unless `follow` says that
a link is replaced there, too. -/
def walk (tree : FileTree) (follow : Bool) (links : Nat) (here : Place) (pieces : List String) :
    Outcome Spot :=
  match pieces with
  | [] => .ok ⟨here, .root, false⟩
  | "" :: rest => tree.walk follow links here rest
  | piece :: rest =>
    let isLast := rest.all (· == "")
    let slash := !rest.isEmpty
    if piece = "." then
      if isLast then .ok ⟨here, .here, slash⟩ else tree.walk follow links here rest
    else if piece = ".." then
      if isLast then .ok ⟨here, .up, slash⟩ else tree.walk follow links here.dropLast rest
    else if nameLimit < piece.utf8ByteSize then .error .nameTooLong
    else
      match tree.entry? (here ++ [piece]) with
      | some (.link target) =>
        if isLast && !follow then .ok ⟨here, .name piece, slash⟩
        else
          match links with
          | 0 => .error .tooManyLinks
          | links + 1 =>
            let (start, first) := setOut here (Path.ofString target)
            tree.walk follow links start (first ++ rest)
      | entry =>
        if isLast then .ok ⟨here, .name piece, slash⟩
        else
          match entry with
          | some .directory => tree.walk follow links (here ++ [piece]) rest
          | some _ => .error .notDirectory
          | none => .error .notFound
termination_by (links, pieces.length)

/-- Where a path leads. -/
def spot (tree : FileTree) (follow : Bool) (path : Path) : Outcome Spot :=
  let text := path.text
  if text.toList.contains '\x00' then .error .nulCharacter
  else if text.isEmpty then .error .notFound
  else if pathLimit ≤ text.utf8ByteSize then .error .nameTooLong
  else
    let (start, pieces) := setOut tree.workingDirectory path
    tree.walk follow linkLimit start pieces

/-- The place and the entry that a path leads to in the end. -/
def find (tree : FileTree) (path : Path) : Outcome (Place × Entry) := do
  let spot ← tree.spot true path
  match tree.entry? spot.place with
  | none => .error .notFound
  | some entry =>
    if spot.slash && !entry.isDirectory then .error .notDirectory
    else .ok (spot.place, entry)

def isPresent (tree : FileTree) (path : Path) : Bool :=
  (tree.find path).toOption.isSome

def isDirectory (tree : FileTree) (path : Path) : Bool :=
  (tree.find path).toOption.any fun found => found.2.isDirectory

/-- The place at which a new entry can be made. -/
def vacantPlace (tree : FileTree) (path : Path) : Outcome Place := do
  let spot ← tree.spot false path
  match spot.last with
  | .name _ =>
    match tree.entry? spot.place with
    | some _ => .error .exists
    | none => .ok spot.place
  | _ => .error .exists

/-- Makes a directory. -/
def makeDirectory (tree : FileTree) (path : Path) : Outcome FileTree := do
  return tree.put (← tree.vacantPlace path) .directory

/-- Makes a symbolic link. -/
def makeLink (tree : FileTree) (path : Path) (target : String) : Outcome FileTree := do
  return tree.put (← tree.vacantPlace path) (.link target)

/-- The spot of a file that is opened for writing; no slash may follow its name. -/
def fileSpot (tree : FileTree) (follow : Bool) (path : Path) : Outcome Spot := do
  let spot ← tree.spot follow path
  match spot.last, spot.slash with
  | .name _, false => .ok spot
  | _, _ => .error .isDirectory

/-- Makes an empty file, or empties the one that is there. -/
def createFile (tree : FileTree) (path : Path) : Outcome FileTree := do
  let _ ← tree.fileSpot false path
  let spot ← tree.fileSpot true path
  match tree.entry? spot.place with
  | some .directory => .error .isDirectory
  | some .fullDevice => .ok tree
  | _ => .ok (tree.put spot.place (.file ByteArray.empty))

/-- Gives a file its bytes. -/
def fillBytes (tree : FileTree) (path : Path) (bytes : ByteArray) : Outcome FileTree := do
  match ← tree.find path with
  | (place, .file _) => .ok (tree.put place (.file bytes))
  | (_, .fullDevice) => if bytes.isEmpty then .ok tree else .error .noSpace
  | _ => .error .isDirectory

/-- Deletes what is no directory. -/
def deleteFile (tree : FileTree) (path : Path) : Outcome FileTree := do
  let spot ← tree.spot false path
  match spot.last with
  | .name _ =>
    match tree.entry? spot.place with
    | none => .error .notFound
    | some .directory => .error .isDirectory
    | some _ => if spot.slash then .error .notDirectory else .ok (tree.erase spot.place)
  | _ => .error .isDirectory

/-- Whether a directory has no entries. -/
def isEmptyDirectory (tree : FileTree) (path : Path) : Outcome Bool := do
  match ← tree.find path with
  | (place, .directory) => .ok (tree.children place).isEmpty
  | _ => .error .notDirectory

/-- Deletes an empty directory. -/
def deleteDirectory (tree : FileTree) (path : Path) : Outcome FileTree := do
  let spot ← tree.spot false path
  match spot.last with
  | .root => .error .busy
  | .here => .error .invalidArgument
  | .up => .error .notEmpty
  | .name _ =>
    match tree.entry? spot.place with
    | none => .error .notFound
    | some .directory =>
      if (tree.children spot.place).isEmpty then .ok (tree.erase spot.place)
      else .error .notEmpty
    | some _ => .error .notDirectory

/-- Deletes a directory if it has no entries, and says whether it did. -/
def deleteIfEmpty (tree : FileTree) (path : Path) : Outcome (Bool × FileTree) := do
  if ← tree.isEmptyDirectory path then return (true, ← tree.deleteDirectory path)
  else return (false, tree)

/-- The text of a file. -/
def readText (tree : FileTree) (path : Path) : Outcome String := do
  match ← tree.find path with
  | (_, .file bytes) =>
    match String.fromUTF8? bytes with
    | some text => .ok text
    | none => .error .notText
  | (_, .directory) => .error .isDirectory
  | _ => .ok ""

/-- Runs an operation that changes the tree; a failure leaves it as it was. -/
def change (operation : FileTree → Outcome FileTree) : StateM FileTree (Outcome Unit) := fun tree =>
  match operation tree with
  | .ok changed => (.ok (), changed)
  | .error error => (.error error, tree)

/-- Asks something of the tree. -/
def ask {α : Type} (question : FileTree → α) : StateM FileTree α := fun tree =>
  (question tree, tree)

instance : Disk (StateM FileTree) where
  isPresent path := ask (·.isPresent path)
  isDirectory path := ask (·.isDirectory path)
  makeDirectory path := change (·.makeDirectory path)
  createFile path := change (·.createFile path)
  fillFile path content := change (·.fillBytes path content.toUTF8)
  deleteFile path := change (·.deleteFile path)
  deleteIfEmpty path tree :=
    match tree.deleteIfEmpty path with
    | .ok (deleted, tree) => (.ok deleted, tree)
    | .error error => (.error error, tree)
  readText path := ask (·.readText path)

end FileTree

end JavaStubs.Files
