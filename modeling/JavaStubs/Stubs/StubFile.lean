import JavaStubs.Files.Path
import JavaStubs.Source.Imports

/-!
# Stub files

A stub file is a package clause, an import block and one printed declaration. It knows where it
belongs: its path relative to the output directory is that of its stub with an extension.
-/
namespace JavaStubs.Stubs

/-- The extension of stub files. -/
def stubExtension : String := "java"

/-- A file with one declaration. -/
structure StubFile where
  /-- The path relative to the output directory, without extension. -/
  stub : Path
  package : Option String := none
  imports : ImportSet := {}
  /-- The printed declaration. -/
  body : String

namespace StubFile

/-- The path relative to the output directory. -/
def relativePath (file : StubFile) : Path :=
  file.stub.append ("." ++ stubExtension)

/-- The path of the file under an output directory. -/
def path (file : StubFile) (base : Path) : Path :=
  base.join file.relativePath

/-- The package clause and an empty line. -/
def packageFragments (package : Option String) : List Fragment :=
  match package with
  | some name => [.line ("package " ++ name ++ ";"), .blank]
  | none => []

/-- The content of the file. -/
def text (file : StubFile) : String :=
  ((Layout.empty.addAll
    (packageFragments file.package ++ Source.importFragments file.imports)).addText file.body).text

end StubFile

end JavaStubs.Stubs
