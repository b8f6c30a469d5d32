import JavaStubs.Layout
import JavaStubs.Model.Unit

/-!
# Import statements

The import block of a file: the imports of whole packages in their order, then those of single
names, then an empty line. Without imports there is no block at all.
-/
namespace JavaStubs.Source

/-- The text without the dots at its end. -/
def trimDots (package : String) : String :=
  String.ofList (package.toList.reverse.dropWhile (· == '.')).reverse

/-- The statement that imports a package. -/
def packageImport (package : String) : String :=
  "import " ++ Names.sourceName (trimDots package) ++ ".*;"

/-- The statement that imports one name. -/
def singleImport (name : String) : String :=
  "import " ++ Names.sourceName name ++ ";"

/-- One statement for every import. -/
def importLines (imports : ImportSet) : List String :=
  imports.starImports.map packageImport ++ imports.imports.map singleImport

/-- The import block. -/
def importFragments (imports : ImportSet) : List Fragment :=
  if imports.isEmpty then [] else (importLines imports).map .line ++ [.blank]

end JavaStubs.Source
