import JavaStubs.Files.Path

/-!
# Work on files

What the program does with files, in terms of a few operations that a `Disk` offers. Every operation
says why it failed, and none of them goes on after a failure unless that is said.
-/
namespace JavaStubs.Files

/-- Why an operation on files failed. -/
inductive FileError where
  | notFound
  | exists
  | notDirectory
  | isDirectory
  | invalidArgument
  | busy
  | noSpace
  | nameTooLong
  | notEmpty
  | tooManyLinks
  /-- A path has a NUL character. -/
  | nulCharacter
  /-- A file that should hold text does not. -/
  | notText
  /-- Not even the first directory of a path could be made. -/
  | noBeginning
  /-- Any other failure, by its wording. -/
  | other (text : String)
  deriving DecidableEq, Repr

/-- The failures that the system has a number for, with its wording. -/
def FileError.numbered : List (FileError × Nat × String) :=
  [(.notFound, 2, "No such file or directory"),
   (.busy, 16, "Device or resource busy"),
   (.exists, 17, "File exists"),
   (.notDirectory, 20, "Not a directory"),
   (.isDirectory, 21, "Is a directory"),
   (.invalidArgument, 22, "Invalid argument"),
   (.noSpace, 28, "No space left on device"),
   (.nameTooLong, 36, "File name too long"),
   (.notEmpty, 39, "Directory not empty"),
   (.tooManyLinks, 40, "Too many levels of symbolic links")]

/-- The failure that the system has that number for. -/
def FileError.ofNumber? (number : Nat) : Option FileError :=
  (numbered.find? (·.2.1 == number)).map (·.1)

/-- The wording of a failure. -/
def FileError.message : FileError → String
  | .nulCharacter => "file name contained an unexpected NUL byte"
  | .notText => "stream did not contain valid UTF-8"
  | .noBeginning => "failed to create whole tree"
  | .other text => text
  | error =>
    match numbered.lookup error with
    | some (number, text) => text ++ " (os error " ++ toString number ++ ")"
    | none => ""

/-- The result of an operation on files. -/
abbrev Outcome (α : Type) := Except FileError α

/-- Files and directories that a computation can work on. -/
class Disk (m : Type → Type) where
  /-- Whether a path leads to something. -/
  isPresent : Path → m Bool
  /-- Whether a path leads to a directory. -/
  isDirectory : Path → m Bool
  makeDirectory : Path → m (Outcome Unit)
  /-- Makes an empty file, or empties the one that is there. -/
  createFile : Path → m (Outcome Unit)
  /-- Gives an empty file its text. -/
  fillFile : Path → String → m (Outcome Unit)
  deleteFile : Path → m (Outcome Unit)
  /-- Deletes a directory if nothing is in it, and says whether it did. -/
  deleteIfEmpty : Path → m (Outcome Bool)
  readText : Path → m (Outcome String)

section

variable {m : Type → Type} [Monad m] [Disk m]

/-- Forgives a failure to make a directory that is there. -/
def unlessDirectory (path : Path) (error : FileError) : m (Outcome Unit) := do
  if ← Disk.isDirectory path then return .ok () else return .error error

/-- Makes a directory and, where they are missing, those it lies in. -/
def createDirectories (path : Path) : m (Outcome Unit) := do
  if path.isEmpty then return .ok ()
  match ← Disk.makeDirectory path with
  | .ok () => return .ok ()
  | .error .notFound =>
    match _h : path.parent? with
    | none => return .error .noBeginning
    | some parent =>
      match ← createDirectories parent with
      | .error error => return .error error
      | .ok () =>
        match ← Disk.makeDirectory path with
        | .ok () => return .ok ()
        | .error error => unlessDirectory path error
  | .error error => unlessDirectory path error
termination_by path.components.length
decreasing_by exact Path.length_components_of_parent? ‹_›

/-- Makes the directory that a path lies in. -/
def createParent (path : Path) : m (Outcome Unit) :=
  match path.parent? with
  | some parent => createDirectories parent
  | none => return .ok ()

/-- Writes a text to a file. If the file was made but cannot hold the text, it is deleted again. -/
def writeFile (path : Path) (content : String) : m (Outcome Unit) := do
  match ← createParent path with
  | .error error => return .error error
  | .ok () =>
    match ← Disk.createFile path with
    | .error error => return .error error
    | .ok () =>
      match ← Disk.fillFile path content with
      | .ok () => return .ok ()
      | .error error =>
        let _ ← Disk.deleteFile path
        return .error error

/-- Deletes a file and says whether there was one. -/
def deleteIfPresent (path : Path) : m (Outcome Bool) := do
  match ← Disk.deleteFile path with
  | .ok () => return .ok true
  | .error .notFound => return .ok false
  | .error error => return .error error

/-- Deletes a directory below a base, then the one it lies in, and so on while they are empty. The
base itself stays. -/
def deleteWhileEmpty (directory base : Path) : m (Outcome Unit) := do
  if directory.same base || !directory.startsWith base then return .ok ()
  match ← Disk.deleteIfEmpty directory with
  | .error error => return .error error
  | .ok false => return .ok ()
  | .ok true =>
    match _h : directory.parent? with
    | some parent => deleteWhileEmpty parent base
    | none => return .ok ()
termination_by directory.components.length
decreasing_by exact Path.length_components_of_parent? ‹_›

end

end JavaStubs.Files
