import JavaStubs.Stubs.Printer
import JavaStubs.Stubs.Registry
import JavaStubs.Stubs.StubFile

/-!
# Generating stubs

One file for every top-level class. The generator decides which classes get one, prints them, writes
the files and registers what it wrote. A class whose super class is not known yet can be put off; a
class that fails stops no other.

Printing gives back the class that it leaves, so every operation here does the same.
-/
namespace JavaStubs.Stubs

open Files (Disk FileError)

/-- How stubs are generated. -/
structure StubSettings where
  outputDirectory : Path
  /-- Whether generics are written. -/
  generics : Bool := true
  /-- Whether a class waits until its super class is known. -/
  requireSuperResolved : Bool := false
  deriving DecidableEq

/-- Why a class gets no file. -/
inductive Omission where
  | unresolvedSuper
  | nested
  | anonymous
  | privateClass
  deriving DecidableEq, Repr

/-- The wording of a reason. -/
def Omission.message : Omission → String
  | .unresolvedSuper => "super class not resolved"
  | .nested => "nested class"
  | .anonymous => "anonymous class"
  | .privateClass => "private class"

/-- Whether a class gets a file. -/
inductive Decision where
  | render
  | skip (reason : Omission)
  deriving DecidableEq, Repr

/-- Decides whether a class gets a file; the first reason against it counts. -/
def StubSettings.decision (settings : StubSettings) (decl : ClassDecl) : Decision :=
  if settings.requireSuperResolved && !decl.isSuperResolved then .skip .unresolvedSuper
  else if decl.isAnonymous then .skip .anonymous
  else if decl.isNested then .skip .nested
  else if decl.isPrivate then .skip .privateClass
  else .render

/-- A stub that was not written. -/
structure Preview where
  path : String
  content : String
  deriving DecidableEq

/-- A stub that could not be written. -/
structure WriteError where
  path : Path
  cause : FileError
  deriving DecidableEq

/-- The wording of a failure without its cause. -/
def WriteError.message (error : WriteError) : String :=
  "Failed to write stub " ++ error.path.text

/-- What became of a class. -/
inductive Generated where
  | written (path : Path)
  | skipped (reason : Omission)
  deriving DecidableEq

/-- What became of a class, or why it failed. -/
abbrev GenerateResult := Except WriteError Generated

/-- A generator and the stubs it wrote. -/
structure Generator where
  settings : StubSettings
  printer : Printer
  registry : Registry

namespace Generator

/-- A generator that wrote nothing yet. -/
def start (settings : StubSettings) (index : ClassIndex)
    (transform : Normalization.Transform := .standard [])
    (strategies : List CallStrategy := CallStrategy.usual) : Generator where
  settings := settings
  printer := { dialect := ⟨settings.generics⟩, index, transform, strategies }
  registry := Registry.empty settings.outputDirectory stubExtension

/-- Decides whether a class gets a file. -/
def decision (g : Generator) (decl : ClassDecl) : Decision := g.settings.decision decl

/-- The file of a class, and the class afterwards. -/
def stubFile (g : Generator) (imports : ImportSet) (decl : ClassDecl) : StubFile × ClassDecl :=
  let (out, decl) := g.printer.printInto decl .empty
  ({ stub := Path.ofDotted decl.name
     package := decl.packageName?
     imports
     body := out.text }, decl)

/-- The content of the class's file, if it gets one. -/
def render (g : Generator) (imports : ImportSet) (decl : ClassDecl) :
    Option String × ClassDecl :=
  match g.decision decl with
  | .skip _ => (none, decl)
  | .render =>
    let (file, decl) := g.stubFile imports decl
    (some file.text, decl)

/-- The class's file without writing it, if it gets one. -/
def preview (g : Generator) (imports : ImportSet) (decl : ClassDecl) :
    Option Preview × ClassDecl :=
  match g.decision decl with
  | .skip _ => (none, decl)
  | .render =>
    let (file, decl) := g.stubFile imports decl
    (some ⟨file.relativePath.text, file.text⟩, decl)

/-- The generator after a stub was written. -/
def register (g : Generator) (stub : Path) : Generator :=
  { g with registry := g.registry.register stub }

section

variable {m : Type → Type} [Monad m] [Disk m]

/-- Writes the class's file, if it gets one, and registers it. -/
def generate (g : Generator) (imports : ImportSet) (decl : ClassDecl) :
    m (GenerateResult × ClassDecl × Generator) := do
  match g.decision decl with
  | .skip reason => return (.ok (.skipped reason), decl, g)
  | .render =>
    let (file, decl) := g.stubFile imports decl
    let path := file.path g.settings.outputDirectory
    match ← Files.writeFile path file.text with
    | .ok () => return (.ok (.written path), decl, g.register file.stub)
    | .error cause => return (.error ⟨path, cause⟩, decl, g)

/-- Generates classes one after the other; each result comes with the name of its class. -/
def generateAll (g : Generator) (imports : ImportSet) :
    List ClassDecl → m (List (String × GenerateResult) × List ClassDecl × Generator)
  | [] => return ([], [], g)
  | decl :: rest => do
    let (result, changed, g) ← g.generate imports decl
    let (results, others, g) ← g.generateAll imports rest
    return ((decl.name, result) :: results, changed :: others, g)

/-- Generates the classes of a unit. -/
def generateUnit (g : Generator) (unit : SourceUnit) :
    m (List (String × GenerateResult) × SourceUnit × Generator) := do
  let (results, classes, g) ← g.generateAll unit.imports unit.classes
  return (results, { unit with classes }, g)

/-- Deletes the stubs that the generator wrote. -/
def clean (g : Generator) : m (Except RemovalError Cleaned × Generator) := do
  let (result, registry) ← g.registry.clean
  return (result, { g with registry })

end

end Generator

end JavaStubs.Stubs
