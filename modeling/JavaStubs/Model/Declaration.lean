import JavaStubs.Model.Expression
import JavaStubs.Model.Modifiers

/-!
# Declarations

Classes and their members as the front end declares them. A class holds its nested classes, so a
declaration is a tree. The default of a field is the value it has when a model does not mention it;
the functions named `ofName` give the usual public declaration instead.
-/
namespace JavaStubs

inductive ClassKind where
  | ordinary
  | interface
  | enumeration
  deriving DecidableEq, Repr

/-- The keyword of a declaration's header. -/
def ClassKind.keyword : ClassKind → String
  | .ordinary => "class"
  | .interface => "interface"
  | .enumeration => "enum"

/-- Where a class is declared. -/
inductive Nesting where
  | topLevel
  | member
  | anonymous
  deriving DecidableEq, Repr

structure FieldDecl where
  name : String
  type : TypeRef
  modifiers : Modifiers := {}
  enumConstant : Bool := false

/-- A property, for which accessors are made. -/
structure PropertyDecl where
  name : String
  type : TypeRef
  modifiers : Modifiers := Modifiers.empty.insert .publicAccess

structure Parameter where
  name : String
  type : TypeRef
  default : Option Expression := none

structure MethodDecl where
  name : String
  modifiers : Modifiers := {}
  returnType : TypeRef := .void
  parameters : List Parameter := []
  generics : List Generic := []
  exceptions : List ClassType := []
  hasBody : Bool := true

/-- Which constructor a constructor calls first. -/
inductive CallTarget where
  | superClass
  | sameClass
  deriving DecidableEq, Repr

/-- The keyword of a delegation call. -/
def CallTarget.keyword : CallTarget → String
  | .superClass => "super"
  | .sameClass => "this"

/-- A call of another constructor as the first statement of a constructor. -/
structure DelegationCall where
  target : CallTarget
  arguments : List Expression := []

structure ConstructorDecl where
  modifiers : Modifiers := {}
  parameters : List Parameter := []
  exceptions : List ClassType := []
  firstCall : Option DelegationCall := none

structure ClassDecl where
  name : String
  package : Option String := none
  modifiers : Modifiers := {}
  kind : ClassKind := .ordinary
  nesting : Nesting := .topLevel
  superClass : Option ClassType := none
  interfaces : List ClassType := []
  generics : List Generic := []
  fields : List FieldDecl := []
  properties : List PropertyDecl := []
  methods : List MethodDecl := []
  constructors : List ConstructorDecl := []
  inner : List ClassDecl := []

namespace FieldDecl

/-- A field without modifiers. -/
def ofName (name : String) (type : TypeRef) : FieldDecl := { name, type }

/-- A constant of the enum of that name. -/
def constantOf (name enumName : String) : FieldDecl :=
  { name
    type := .ofName enumName
    modifiers := .ofList [.publicAccess, .static, .final]
    enumConstant := true }

/-- Whether no source declares the field. -/
def isSynthetic (field : FieldDecl) : Bool := field.modifiers.isSynthetic

end FieldDecl

/-- A public property. -/
def PropertyDecl.ofName (name : String) (type : TypeRef) : PropertyDecl := { name, type }

namespace Parameter

/-- A parameter without a default. -/
def ofName (name : String) (type : TypeRef) : Parameter := { name, type }

/-- The parameter with a default. -/
def withDefault (parameter : Parameter) (value : Expression) : Parameter :=
  { parameter with default := some value }

/-- The parameter without its default. -/
def withoutDefault (parameter : Parameter) : Parameter :=
  { parameter with default := none }

/-- Whether a call may leave the parameter out. -/
def hasDefault (parameter : Parameter) : Bool := parameter.default.isSome

@[simp] theorem hasDefault_withoutDefault (parameter : Parameter) :
    parameter.withoutDefault.hasDefault = false := rfl

@[simp] theorem withoutDefault_withoutDefault (parameter : Parameter) :
    parameter.withoutDefault.withoutDefault = parameter.withoutDefault := rfl

end Parameter

namespace MethodDecl

/-- A public method without parameters and result. -/
def ofName (name : String) : MethodDecl :=
  { name, modifiers := Modifiers.empty.insert .publicAccess }

/-- With that result. -/
def returning (method : MethodDecl) (type : TypeRef) : MethodDecl :=
  { method with returnType := type }

/-- With one more parameter. -/
def addParameter (method : MethodDecl) (parameter : Parameter) : MethodDecl :=
  { method with parameters := method.parameters ++ [parameter] }

/-- With one more type variable. -/
def addGeneric (method : MethodDecl) (generic : Generic) : MethodDecl :=
  { method with generics := method.generics ++ [generic] }

/-- With one more exception. -/
def addException (method : MethodDecl) (exception : ClassType) : MethodDecl :=
  { method with exceptions := method.exceptions ++ [exception] }

/-- The method without its body, marked abstract. -/
def withoutBody (method : MethodDecl) : MethodDecl :=
  { method with modifiers := method.modifiers.insert .abstract, hasBody := false }

def isPrivate (method : MethodDecl) : Bool := method.modifiers.isPrivate

/-- Whether no source declares the method. -/
def isSynthetic (method : MethodDecl) : Bool := method.modifiers.isSynthetic

/-- Whether the method is marked abstract or has no body. -/
def isAbstract (method : MethodDecl) : Bool := method.modifiers.isAbstract || !method.hasBody

/-- Whether some parameter has a default. -/
def hasDefaults (method : MethodDecl) : Bool := method.parameters.any Parameter.hasDefault

end MethodDecl

namespace DelegationCall

/-- A call of a super class constructor. -/
def superCall (arguments : List Expression) : DelegationCall := ⟨.superClass, arguments⟩

/-- A call of a constructor of the same class. -/
def thisCall (arguments : List Expression) : DelegationCall := ⟨.sameClass, arguments⟩

end DelegationCall

namespace ConstructorDecl

/-- A constructor with those modifiers only. -/
def ofModifiers (modifiers : Modifiers) : ConstructorDecl := { modifiers }

/-- With one more parameter. -/
def addParameter (constructor : ConstructorDecl) (parameter : Parameter) : ConstructorDecl :=
  { constructor with parameters := constructor.parameters ++ [parameter] }

/-- With one more exception. -/
def addException (constructor : ConstructorDecl) (exception : ClassType) : ConstructorDecl :=
  { constructor with exceptions := constructor.exceptions ++ [exception] }

/-- With that first statement. -/
def delegating (constructor : ConstructorDecl) (call : DelegationCall) : ConstructorDecl :=
  { constructor with firstCall := some call }

/-- Whether a subclass anywhere may call the constructor. -/
def isAccessible (constructor : ConstructorDecl) : Bool :=
  constructor.modifiers.isPublic || constructor.modifiers.isProtected

/-- Whether some parameter has a default. -/
def hasDefaults (constructor : ConstructorDecl) : Bool :=
  constructor.parameters.any Parameter.hasDefault

end ConstructorDecl

namespace ClassDecl

/-- A public top-level class without members. -/
def ofName (name : String) : ClassDecl :=
  { name, modifiers := Modifiers.empty.insert .publicAccess }

/-- With one more interface. -/
def addInterface (decl : ClassDecl) (interface : ClassType) : ClassDecl :=
  { decl with interfaces := decl.interfaces ++ [interface] }

/-- With one more type variable. -/
def addGeneric (decl : ClassDecl) (generic : Generic) : ClassDecl :=
  { decl with generics := decl.generics ++ [generic] }

/-- With one more field. -/
def addField (decl : ClassDecl) (field : FieldDecl) : ClassDecl :=
  { decl with fields := decl.fields ++ [field] }

/-- With one more property. -/
def addProperty (decl : ClassDecl) (property : PropertyDecl) : ClassDecl :=
  { decl with properties := decl.properties ++ [property] }

/-- With one more method. -/
def addMethod (decl : ClassDecl) (method : MethodDecl) : ClassDecl :=
  { decl with methods := decl.methods ++ [method] }

/-- With one more constructor. -/
def addConstructor (decl : ClassDecl) (constructor : ConstructorDecl) : ClassDecl :=
  { decl with constructors := decl.constructors ++ [constructor] }

/-- With one more nested class. -/
def addInner (decl : ClassDecl) (inner : ClassDecl) : ClassDecl :=
  { decl with inner := decl.inner ++ [inner] }

def isInterface (decl : ClassDecl) : Bool := decl.kind == .interface

def isEnum (decl : ClassDecl) : Bool := decl.kind == .enumeration

def isPrivate (decl : ClassDecl) : Bool := decl.modifiers.isPrivate

/-- Whether the class stands inside another. -/
def isNested (decl : ClassDecl) : Bool := decl.nesting != .topLevel

def isAnonymous (decl : ClassDecl) : Bool := decl.nesting == .anonymous

/-- Whether the front end knows the super class; a class without one has nothing to wait for. -/
def isSuperResolved (decl : ClassDecl) : Bool :=
  decl.superClass.all (·.resolved)

/-- The name without its package. -/
def nameWithoutPackage (decl : ClassDecl) : String := Names.withoutPackage decl.name

/-- The name that the header and the constructors are written with. -/
def simpleName (decl : ClassDecl) : String := Names.simpleName decl.name

/-- The qualified name of the immediate super class. -/
def superName (decl : ClassDecl) : String :=
  match decl.superClass with
  | some superClass => superClass.name
  | none => Names.object

/-- The package that is declared or, failing that, named before the last dot. -/
def packageName? (decl : ClassDecl) : Option String :=
  match decl.package with
  | some package => some package
  | none => Text.beforeLast? '.' decl.name

/-- Whether the class declares a method of that name and number of parameters. -/
def declaresMethod (decl : ClassDecl) (name : String) (arity : Nat) : Bool :=
  decl.methods.any fun m => m.name == name && m.parameters.length == arity

/-- Whether the class declares a field of that name. -/
def declaresField (decl : ClassDecl) (name : String) : Bool :=
  decl.fields.any fun f => f.name == name

end ClassDecl

end JavaStubs
