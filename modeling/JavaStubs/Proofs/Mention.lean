import JavaStubs.Model.Index

/-!
# Names that occur in declarations

Every text that a declaration brings along from outside: the names of classes, members, parameters
and type variables, wherever they stand, in bounds, default values and calls as well. The values of
constants are no names, and neither is a declared package, which belongs to the file.
-/
namespace JavaStubs

mutual

/-- The names in a type. -/
def TypeRef.names : TypeRef → List String
  | .primitive _ => []
  | .named type => type.names
  | .array component => component.names
  | .placeholder name erasure => name :: erasure.names

/-- The names in a class type, its arguments included. -/
def ClassType.names : ClassType → List String
  | { name, generics, .. } => name :: Generic.listNames generics

/-- The names in generic parameters or arguments. -/
def Generic.listNames : List Generic → List String
  | [] => []
  | generic :: rest => generic.names ++ Generic.listNames rest

/-- The names in a generic parameter or argument and in its bounds. -/
def Generic.names : Generic → List String
  | { name, type, upperBounds, lowerBound } =>
    name ::
      ((match type with
        | some type => type.names
        | none => []) ++
      TypeRef.listNames upperBounds ++
      (match lowerBound with
        | some bound => bound.names
        | none => []))

/-- The names in several types. -/
def TypeRef.listNames : List TypeRef → List String
  | [] => []
  | type :: rest => type.names ++ TypeRef.listNames rest

end

theorem Generic.listNames_eq_flatMap (generics : List Generic) :
    Generic.listNames generics = generics.flatMap Generic.names := by
  induction generics with
  | nil => simp [Generic.listNames]
  | cons generic rest ih => simp [Generic.listNames, ih]

@[simp] theorem TypeRef.names_void : TypeRef.void.names = [] := by simp [TypeRef.void, names]

@[simp] theorem ClassType.names_ofName (name : String) :
    (ClassType.ofName name).names = [name] := by
  simp [ofName, names, Generic.listNames]

@[simp] theorem ClassType.names_object : ClassType.object.names = [Names.object] :=
  names_ofName Names.object

@[simp] theorem TypeRef.names_ofName (name : String) : (TypeRef.ofName name).names = [name] := by
  simp [TypeRef.ofName, names]

@[simp] theorem TypeRef.names_string : TypeRef.string.names = [Names.string] :=
  names_ofName Names.string

/-- The names in an expression. -/
def Expression.names : Expression → List String
  | .constant _ => []
  | .reference name type => name :: type.names
  | .other type => type.names

/-- The names in a parameter and in its default value. -/
def Parameter.names (parameter : Parameter) : List String :=
  parameter.name :: (parameter.type.names ++ parameter.default.toList.flatMap Expression.names)

@[simp] theorem Parameter.names_ofName (name : String) (type : TypeRef) :
    (Parameter.ofName name type).names = name :: type.names := by simp [Parameter.ofName, names]

def FieldDecl.names (field : FieldDecl) : List String :=
  field.name :: field.type.names

def PropertyDecl.names (property : PropertyDecl) : List String :=
  property.name :: property.type.names

/-- The names in a method but for its own. -/
def MethodDecl.signatureNames (method : MethodDecl) : List String :=
  method.returnType.names ++ method.parameters.flatMap Parameter.names ++
    method.generics.flatMap Generic.names ++ method.exceptions.flatMap ClassType.names

def MethodDecl.names (method : MethodDecl) : List String :=
  method.name :: method.signatureNames

/-- The names in a constructor and in the call that it makes. -/
def ConstructorDecl.names (constructor : ConstructorDecl) : List String :=
  constructor.parameters.flatMap Parameter.names ++
    constructor.exceptions.flatMap ClassType.names ++
    constructor.firstCall.toList.flatMap fun call => call.arguments.flatMap Expression.names

/-- The names in a class, without its nested classes. -/
def ClassDecl.ownNames (decl : ClassDecl) : List String :=
  decl.name ::
    (decl.superClass.toList.flatMap ClassType.names ++ decl.interfaces.flatMap ClassType.names ++
      decl.generics.flatMap Generic.names ++ decl.fields.flatMap FieldDecl.names ++
      decl.properties.flatMap PropertyDecl.names ++ decl.methods.flatMap MethodDecl.names ++
      decl.constructors.flatMap ConstructorDecl.names)

mutual

/-- The names in a class and in all that is nested in it. -/
def ClassDecl.names (decl : ClassDecl) : List String :=
  match decl with
  | { inner, .. } => decl.ownNames ++ ClassDecl.listNames inner

/-- The names in several classes. -/
def ClassDecl.listNames : List ClassDecl → List String
  | [] => []
  | decl :: rest => decl.names ++ ClassDecl.listNames rest

end

def ImportSet.names (imports : ImportSet) : List String :=
  imports.starImports ++ imports.imports

/-- The names in the types that the constructors of a known class take. -/
def KnownClass.parameterNames (known : KnownClass) : List String :=
  known.constructors.flatMap fun c => c.parameters.flatMap fun p => p.type.names

end JavaStubs
