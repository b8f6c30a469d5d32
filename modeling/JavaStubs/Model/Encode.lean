import JavaStubs.Json.Value
import JavaStubs.Model.Unit

/-!
# The JSON form of a model

Every field is written, also one that has its default. A variant is an object with one member named
for the variant, or only that name if it holds nothing.
-/
namespace JavaStubs

/-- A variant with its contents. -/
def Json.variant (name : String) (contents : Json) : Json :=
  .record [(name, contents)]

def Modifiers.toJson (modifiers : Modifiers) : Json := .text modifiers.text

/-- The name of a primitive type is its keyword. -/
def Primitive.toJson (type : Primitive) : Json := .text type.keyword

mutual

def TypeRef.toJson : TypeRef → Json
  | .primitive type => .variant "primitive" type.toJson
  | .named type => .variant "class" type.toJson
  | .array component => .variant "array" component.toJson
  | .placeholder name erasure =>
    .variant "placeholder" (.record [("name", .text name), ("erasure", erasure.toJson)])

def TypeRef.listToJson : List TypeRef → List Json
  | [] => []
  | type :: rest => type.toJson :: TypeRef.listToJson rest

def ClassType.toJson : ClassType → Json
  | { name, generics, resolved } =>
    .record
      [("name", .text name),
       ("generics", .list (Generic.listToJson generics)),
       ("resolved", .boolean resolved)]

def Generic.toJson : Generic → Json
  | { name, type, upperBounds, lowerBound } =>
    .record
      [("name", .text name),
       ("ty", match type with | some type => type.toJson | none => .null),
       ("upper_bounds", .list (TypeRef.listToJson upperBounds)),
       ("lower_bound", match lowerBound with | some bound => bound.toJson | none => .null)]

def Generic.listToJson : List Generic → List Json
  | [] => []
  | generic :: rest => generic.toJson :: Generic.listToJson rest

end

theorem TypeRef.listToJson_eq_map (types : List TypeRef) :
    TypeRef.listToJson types = types.map TypeRef.toJson := by
  induction types with
  | nil => rfl
  | cons type rest ih => simp [TypeRef.listToJson, ih]

theorem Generic.listToJson_eq_map (generics : List Generic) :
    Generic.listToJson generics = generics.map Generic.toJson := by
  induction generics with
  | nil => rfl
  | cons generic rest ih => simp [Generic.listToJson, ih]

/-- A single precision value is written with double precision, which changes nothing. -/
def Literal.widen (bits : UInt32) : UInt64 := (Float32.ofBits bits).toFloat.toBits

def Literal.toJson : Literal → Json
  | .null => .text "null"
  | .bool value => .variant "bool" (.boolean value)
  | .int value => .variant "int" (.integer value.toInt)
  | .float bits => .variant "float" (.fraction (widen bits))
  | .double bits => .variant "double" (.fraction bits)
  | .char value => .variant "char" (.text (String.singleton value))
  | .string value => .variant "str" (.text value)

def Expression.toJson : Expression → Json
  | .constant value => .variant "constant" value.toJson
  | .reference name type =>
    .variant "variable" (.record [("name", .text name), ("ty", type.toJson)])
  | .other type => .variant "other" (.record [("ty", type.toJson)])

def ClassKind.toJson (kind : ClassKind) : Json := .text kind.keyword

def Nesting.name : Nesting → String
  | .topLevel => "top_level"
  | .member => "member"
  | .anonymous => "anonymous"

def Nesting.toJson (nesting : Nesting) : Json := .text nesting.name

def FieldDecl.toJson (field : FieldDecl) : Json :=
  .record
    [("name", .text field.name),
     ("ty", field.type.toJson),
     ("modifiers", field.modifiers.toJson),
     ("enum_constant", .boolean field.enumConstant)]

def PropertyDecl.toJson (property : PropertyDecl) : Json :=
  .record
    [("name", .text property.name),
     ("ty", property.type.toJson),
     ("modifiers", property.modifiers.toJson)]

def Parameter.toJson (parameter : Parameter) : Json :=
  .record
    [("name", .text parameter.name),
     ("ty", parameter.type.toJson),
     ("default", .ofOption (parameter.default.map Expression.toJson))]

def MethodDecl.toJson (method : MethodDecl) : Json :=
  .record
    [("name", .text method.name),
     ("modifiers", method.modifiers.toJson),
     ("return_type", method.returnType.toJson),
     ("parameters", .list (method.parameters.map Parameter.toJson)),
     ("generics", .list (method.generics.map Generic.toJson)),
     ("exceptions", .list (method.exceptions.map ClassType.toJson)),
     ("has_body", .boolean method.hasBody)]

/-- The name of a call's target is its keyword. -/
def CallTarget.toJson (target : CallTarget) : Json := .text target.keyword

def DelegationCall.toJson (call : DelegationCall) : Json :=
  .record
    [("kind", call.target.toJson),
     ("arguments", .list (call.arguments.map Expression.toJson))]

def ConstructorDecl.toJson (constructor : ConstructorDecl) : Json :=
  .record
    [("modifiers", constructor.modifiers.toJson),
     ("parameters", .list (constructor.parameters.map Parameter.toJson)),
     ("exceptions", .list (constructor.exceptions.map ClassType.toJson)),
     ("first_call", .ofOption (constructor.firstCall.map DelegationCall.toJson))]

mutual

def ClassDecl.toJson : ClassDecl → Json
  | { name, package, modifiers, kind, nesting, superClass, interfaces, generics, fields,
      properties, methods, constructors, inner } =>
    .record
      [("name", .text name),
       ("package", .ofOption (package.map .text)),
       ("modifiers", modifiers.toJson),
       ("kind", kind.toJson),
       ("nesting", nesting.toJson),
       ("super_class", .ofOption (superClass.map ClassType.toJson)),
       ("interfaces", .list (interfaces.map ClassType.toJson)),
       ("generics", .list (generics.map Generic.toJson)),
       ("fields", .list (fields.map FieldDecl.toJson)),
       ("properties", .list (properties.map PropertyDecl.toJson)),
       ("methods", .list (methods.map MethodDecl.toJson)),
       ("constructors", .list (constructors.map ConstructorDecl.toJson)),
       ("inner", .list (ClassDecl.listToJson inner))]

def ClassDecl.listToJson : List ClassDecl → List Json
  | [] => []
  | decl :: rest => decl.toJson :: ClassDecl.listToJson rest

end

theorem ClassDecl.listToJson_eq_map (decls : List ClassDecl) :
    ClassDecl.listToJson decls = decls.map ClassDecl.toJson := by
  induction decls with
  | nil => rfl
  | cons decl rest ih => simp [ClassDecl.listToJson, ih]

def ImportSet.toJson (set : ImportSet) : Json :=
  .record [("star_imports", .texts set.starImports), ("imports", .texts set.imports)]

def SourceUnit.toJson (unit : SourceUnit) : Json :=
  .record
    [("imports", unit.imports.toJson),
     ("classes", .list (unit.classes.map ClassDecl.toJson))]

def ExternalClass.toJson (decl : ExternalClass) : Json :=
  .record
    [("name", .text decl.name),
     ("constructors", .list (decl.constructors.map ConstructorDecl.toJson))]

def DeclarationModel.toJson (model : DeclarationModel) : Json :=
  .record
    [("units", .list (model.units.map SourceUnit.toJson)),
     ("external", .list (model.external.map ExternalClass.toJson))]

end JavaStubs
