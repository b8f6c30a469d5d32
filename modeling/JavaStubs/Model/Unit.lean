import JavaStubs.Model.Declaration

/-!
# Source units and models

A source unit is what one source file declares, with its imports. A model holds the units of a
compilation and what is known of classes that come from elsewhere.
-/
namespace JavaStubs

/-- The imports of a source file: whole packages, and single names. -/
structure ImportSet where
  starImports : List String := []
  imports : List String := []
  deriving DecidableEq

namespace ImportSet

/-- With one more package. -/
def addStar (set : ImportSet) (package : String) : ImportSet :=
  { set with starImports := set.starImports ++ [package] }

/-- With one more name. -/
def addSingle (set : ImportSet) (name : String) : ImportSet :=
  { set with imports := set.imports ++ [name] }

def isEmpty (set : ImportSet) : Bool := set.starImports.isEmpty && set.imports.isEmpty

end ImportSet

/-- What one source file declares. -/
structure SourceUnit where
  imports : ImportSet := {}
  classes : List ClassDecl := []

/-- With one more class. -/
def SourceUnit.addClass (unit : SourceUnit) (decl : ClassDecl) : SourceUnit :=
  { unit with classes := unit.classes ++ [decl] }

/-- A class that no source unit declares. -/
structure ExternalClass where
  name : String
  constructors : List ConstructorDecl := []

/-- With one more constructor. -/
def ExternalClass.addConstructor (decl : ExternalClass) (constructor : ConstructorDecl) :
    ExternalClass :=
  { decl with constructors := decl.constructors ++ [constructor] }

/-- The declarations of a compilation. -/
structure DeclarationModel where
  units : List SourceUnit := []
  external : List ExternalClass := []

namespace DeclarationModel

/-- With one more unit. -/
def addUnit (model : DeclarationModel) (unit : SourceUnit) : DeclarationModel :=
  { model with units := model.units ++ [unit] }

/-- With one more external class. -/
def addExternal (model : DeclarationModel) (decl : ExternalClass) : DeclarationModel :=
  { model with external := model.external ++ [decl] }

/-- The classes of all units, in order. -/
def topLevel (model : DeclarationModel) : List ClassDecl :=
  model.units.flatMap (·.classes)

/-- The number of classes of all units. -/
def topLevelCount (model : DeclarationModel) : Nat := model.topLevel.length

@[simp] theorem topLevel_addExternal (model : DeclarationModel) (decl : ExternalClass) :
    (model.addExternal decl).topLevel = model.topLevel := rfl

end DeclarationModel

end JavaStubs
