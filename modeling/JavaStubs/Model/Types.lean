import JavaStubs.Names

/-!
# Types

References to types as fields, parameters and results have them, and the generic parameters and
arguments of classes. The three kinds of description contain each other: a class type has generic
arguments, an argument has a type and bounds, and a type can be a class type.
-/
namespace JavaStubs

/-- The primitive types and `void`. -/
inductive Primitive where
  | boolean
  | char
  | byte
  | short
  | int
  | long
  | float
  | double
  | void
  deriving DecidableEq, Repr

/-- The keyword of a primitive type. -/
def Primitive.keyword : Primitive → String
  | .boolean => "boolean"
  | .char => "char"
  | .byte => "byte"
  | .short => "short"
  | .int => "int"
  | .long => "long"
  | .float => "float"
  | .double => "double"
  | .void => "void"

mutual

/-- The type of a field, a parameter or a result. -/
inductive TypeRef where
  | primitive (type : Primitive)
  | named (type : ClassType)
  | array (component : TypeRef)
  /-- A type variable, with the class it stands for when generics are erased. -/
  | placeholder (name : String) (erasure : ClassType)

/-- A class, interface or enum with its generic arguments. -/
structure ClassType where
  /-- The qualified name, in which nested classes follow a `$`. -/
  name : String
  generics : List Generic := []
  /-- Whether the front end knows the class already. -/
  resolved : Bool := true

/-- A generic parameter or argument: a type variable or wildcard if it has no type, else a
concrete argument. -/
structure Generic where
  name : String := ""
  type : Option TypeRef := none
  upperBounds : List TypeRef := []
  lowerBound : Option TypeRef := none

end

instance : Inhabited ClassType := ⟨{ name := "" }⟩
instance : Inhabited TypeRef := ⟨.primitive .void⟩
instance : Inhabited Generic := ⟨{}⟩

namespace ClassType

/-- The resolved class of a name, without arguments. -/
def ofName (name : String) : ClassType := { name }

/-- The class of a name, not resolved yet. -/
def unresolved (name : String) : ClassType := { name, resolved := false }

/-- The universal super class. -/
def object : ClassType := ofName Names.object

/-- The class of strings. -/
def string : ClassType := ofName Names.string

/-- The class with one more argument. -/
def addGeneric (type : ClassType) (argument : Generic) : ClassType :=
  { type with generics := type.generics ++ [argument] }

/-- Whether this is exactly the universal super class. -/
def isObject (type : ClassType) : Bool := type.name == Names.object

/-- Whether the class never takes arguments. -/
def isNonGeneric (type : ClassType) : Bool := Names.nonGeneric.contains type.name

end ClassType

namespace TypeRef

def boolean : TypeRef := .primitive .boolean
def int : TypeRef := .primitive .int
def long : TypeRef := .primitive .long
def double : TypeRef := .primitive .double
def void : TypeRef := .primitive .void

/-- The resolved class of a name. -/
def ofName (name : String) : TypeRef := .named (ClassType.ofName name)

/-- The universal super class. -/
def object : TypeRef := .named ClassType.object

/-- The class of strings. -/
def string : TypeRef := .named ClassType.string

/-- A type variable that stands for any object. -/
def typeVariable (name : String) : TypeRef := .placeholder name ClassType.object

/-- Whether this is a primitive type with values. -/
def isPrimitive : TypeRef → Bool
  | .primitive type => type != .void
  | _ => false

/-- Whether this is `void`. -/
def isVoid : TypeRef → Bool
  | .primitive type => type == .void
  | _ => false

/-- Whether this is `boolean`. -/
def isBoolean : TypeRef → Bool
  | .primitive type => type == .boolean
  | _ => false

/-- Whether this is exactly the universal super class; type variables do not count. -/
def isObject : TypeRef → Bool
  | .named type => type.isObject
  | _ => false

/-- Whether this is the class of strings. -/
def isString : TypeRef → Bool
  | .named type => type.name == Names.string
  | _ => false

end TypeRef

namespace Generic

/-- A type variable, as declared or used. -/
def placeholder (name : String) : Generic := { name }

/-- The wildcard. -/
def wildcard : Generic := placeholder "?"

/-- A concrete argument. -/
def ofType (type : TypeRef) : Generic := { type := some type }

/-- With one more upper bound. -/
def addUpperBound (generic : Generic) (bound : TypeRef) : Generic :=
  { generic with upperBounds := generic.upperBounds ++ [bound] }

/-- With that lower bound. -/
def withLowerBound (generic : Generic) (bound : TypeRef) : Generic :=
  { generic with lowerBound := some bound }

/-- Whether this has no concrete type. -/
def isPlaceholder (generic : Generic) : Bool := generic.type.isNone

end Generic

end JavaStubs
