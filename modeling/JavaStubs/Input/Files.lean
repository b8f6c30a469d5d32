import JavaStubs.Files.Disk
import JavaStubs.Input.Config
import JavaStubs.Input.ModelText

/-!
# Input files

Reads the two files that the program takes: the configuration, which may be missing if no path is
given, and the model. What goes wrong is said with the path as it was given.
-/
namespace JavaStubs.Input

open Files (Disk FileError)

/-- Why an input file cannot be used. -/
inductive InputError where
  | unreadable (path : Path) (cause : FileError)
  | config (file : String) (fault : ConfigFault)
  | model (file : String) (fault : ModelFault)
  deriving DecidableEq

/-- The wording of a failure without its cause. -/
def InputError.message : InputError → String
  | .unreadable path _ => "failed to read '" ++ path.text ++ "'"
  | .config .. => "failed to parse skel.toml"
  | .model .. => "failed to parse declaration model"

/-- The wording of the cause. -/
def InputError.cause : InputError → String
  | .unreadable _ cause => cause.message
  | .config _ .syntactic => "not a TOML document"
  | .config _ (.misfit misfit) => misfit.complaint.message Toml.spelling
  | .model _ fault => fault.cause

/-- The configuration that is looked for if none is named. -/
def usualConfig : Path := .ofString "skel.toml"

/-- A model and the file that holds it. -/
structure ModelFile where
  path : Path
  model : DeclarationModel

section

variable {m : Type → Type} [Monad m] [Disk m]

/-- The text of an input file. -/
def readInput (path : Path) : m (Except InputError String) := do
  return (← Disk.readText path).mapError (.unreadable path)

/-- Reads the configuration at a path. -/
def readConfig (path : Path) : m (Except InputError Config) := do
  match ← readInput path with
  | .error error => return .error error
  | .ok text => return (Config.parse text).mapError (.config path.text)

/-- Reads the configuration that is named, or else the usual one if it is there. -/
def loadConfig (named : Option Path) : m (Except InputError Config) := do
  match named with
  | some path => readConfig path
  | none =>
    if ← Disk.isPresent usualConfig then readConfig usualConfig else return .ok {}

/-- Reads the model at a path. -/
def openModel (path : Path) : m (Except InputError ModelFile) := do
  match ← readInput path with
  | .error error => return .error error
  | .ok text =>
    let model := (parseModel text).mapError (.model path.text)
    return model.map fun model => { path, model }

end

end JavaStubs.Input
