import JavaStubs.Model.Unit
import JavaStubs.Table

/-!
# The class index

What is known of the classes of a model, by qualified name. A source class replaces whatever was
known under its name and brings in its nested classes after it; an external class only fills a gap.
So a source class always wins, the last one of a name among them, and of external classes the first.
-/
namespace JavaStubs

/-- Where knowledge of a class comes from. -/
inductive Provenance where
  | source
  | external
  deriving DecidableEq, Repr

/-- What is known of a class. -/
structure KnownClass where
  origin : Provenance
  constructors : List ConstructorDecl

/-- The classes that are known, by name. -/
structure ClassIndex where
  known : Table String KnownClass

namespace ClassIndex

/-- The index without classes. -/
def empty : ClassIndex := ⟨Table.empty⟩

instance : EmptyCollection ClassIndex := ⟨empty⟩

instance : Inhabited ClassIndex := ⟨empty⟩

/-- What is known under a name. -/
def get? (index : ClassIndex) (name : String) : Option KnownClass :=
  index.known.get? name

/-- Records a class under a name and forgets what was known. -/
def put (index : ClassIndex) (name : String) (value : KnownClass) : ClassIndex :=
  ⟨index.known.put name value⟩

@[simp] theorem get?_empty (name : String) : empty.get? name = none := rfl

theorem get?_put (index : ClassIndex) (name : String) (value : KnownClass) (key : String) :
    (index.put name value).get? key = if key = name then some value else index.get? key :=
  index.known.get?_put name value key

mutual

/-- Records a source class and then its nested classes. -/
def recordSource (index : ClassIndex) : ClassDecl → ClassIndex
  | { name, constructors, inner, .. } =>
    recordSources (index.put name ⟨.source, constructors⟩) inner

/-- Records source classes one after the other. -/
def recordSources (index : ClassIndex) : List ClassDecl → ClassIndex
  | [] => index
  | decl :: rest => recordSources (index.recordSource decl) rest

end

/-- Records an external class unless its name is taken. -/
def recordExternal (index : ClassIndex) (decl : ExternalClass) : ClassIndex :=
  match index.get? decl.name with
  | some _ => index
  | none => index.put decl.name ⟨.external, decl.constructors⟩

/-- The index of a model: its source classes, then the external ones. -/
def ofModel (model : DeclarationModel) : ClassIndex :=
  model.external.foldl recordExternal (recordSources empty model.topLevel)

/-- The number of names. -/
def size (index : ClassIndex) : Nat := index.known.size

def isEmpty (index : ClassIndex) : Bool := index.size == 0

end ClassIndex

end JavaStubs
