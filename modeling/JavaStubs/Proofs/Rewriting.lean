import JavaStubs.Model.Index
import JavaStubs.Proofs.MadeMembers
import JavaStubs.Proofs.Printing

/-!
# Rewriting the types of declarations

A rewriting exchanges the types in a declaration for others of the same kind: classes keep their
names, type variables stay type variables, and lists of generic parameters can become others. The
members that are made for a class are rewritten with it, since nothing decides over them that a
rewriting changes. So where the new types are written as the old ones were, if need be in another
dialect, a declaration is printed as before.
-/
namespace JavaStubs

open Source (Dialect)

/-- What classes, type variables and lists of generic parameters or arguments are exchanged for. -/
structure Rewriting where
  classType : ClassType → ClassType
  /-- The name of a type variable, which may depend on its erasure. -/
  typeVariable : String → ClassType → String
  generics : List Generic → List Generic
  name_classType : ∀ type, (classType type).name = type.name
  classType_ofName : ∀ name, classType (.ofName name) = .ofName name
  generics_nil : generics [] = []

namespace Rewriting

/-- The rewritten type. -/
def type (r : Rewriting) : TypeRef → TypeRef
  | .primitive type => .primitive type
  | .named type => .named (r.classType type)
  | .array component => .array (r.type component)
  | .placeholder name erasure => .placeholder (r.typeVariable name erasure) (r.classType erasure)

section

variable (r : Rewriting)

def expression : Expression → Expression
  | .constant value => .constant value
  | .reference name type => .reference name (r.type type)
  | .other type => .other (r.type type)

def parameter (parameter : Parameter) : Parameter :=
  { parameter with
    type := r.type parameter.type
    default := parameter.default.map r.expression }

def field (field : FieldDecl) : FieldDecl :=
  { field with type := r.type field.type }

def property (property : PropertyDecl) : PropertyDecl :=
  { property with type := r.type property.type }

def method (method : MethodDecl) : MethodDecl :=
  { method with
    returnType := r.type method.returnType
    parameters := method.parameters.map r.parameter
    generics := r.generics method.generics
    exceptions := method.exceptions.map r.classType }

def call (call : DelegationCall) : DelegationCall :=
  { call with arguments := call.arguments.map r.expression }

def constructor (constructor : ConstructorDecl) : ConstructorDecl :=
  { constructor with
    parameters := constructor.parameters.map r.parameter
    exceptions := constructor.exceptions.map r.classType
    firstCall := constructor.firstCall.map r.call }

/-- The class with its own types rewritten, and its nested classes as they were. -/
def own (decl : ClassDecl) : ClassDecl :=
  { decl with
    superClass := decl.superClass.map r.classType
    interfaces := decl.interfaces.map r.classType
    generics := r.generics decl.generics
    fields := decl.fields.map r.field
    properties := decl.properties.map r.property
    methods := decl.methods.map r.method
    constructors := decl.constructors.map r.constructor }

end

mutual

/-- The class with all types rewritten. -/
def classDecl (r : Rewriting) (decl : ClassDecl) : ClassDecl :=
  match decl with
  | { inner, .. } => { r.own decl with inner := r.classDecls inner }

/-- The classes with all types rewritten. -/
def classDecls (r : Rewriting) : List ClassDecl → List ClassDecl
  | [] => []
  | decl :: rest => r.classDecl decl :: r.classDecls rest

end

variable (r : Rewriting)

/-- What is known of a class, with rewritten constructors. -/
def known (known : KnownClass) : KnownClass :=
  { known with constructors := known.constructors.map r.constructor }

theorem classDecl_eq (decl : ClassDecl) :
    r.classDecl decl = { r.own decl with inner := r.classDecls decl.inner } := by
  obtain ⟨⟩ := decl
  rw [classDecl]

/-! ### What a rewriting keeps -/

@[simp] theorem type_ofName (name : String) : r.type (.ofName name) = .ofName name := by
  simp [TypeRef.ofName, type, r.classType_ofName]

@[simp] theorem type_string : r.type .string = .string := r.type_ofName Names.string

@[simp] theorem classType_object : r.classType .object = .object := r.classType_ofName Names.object

@[simp] theorem isBoolean_type (type : TypeRef) : (r.type type).isBoolean = type.isBoolean := by
  cases type <;> rfl

@[simp] theorem isPrimitive_type (type : TypeRef) :
    (r.type type).isPrimitive = type.isPrimitive := by
  cases type <;> rfl

@[simp] theorem isVoid_type (type : TypeRef) : (r.type type).isVoid = type.isVoid := by
  cases type <;> rfl

@[simp] theorem isObject_type (type : TypeRef) : (r.type type).isObject = type.isObject := by
  cases type <;> simp [Rewriting.type, TypeRef.isObject, ClassType.isObject, r.name_classType]

@[simp] theorem isString_type (type : TypeRef) : (r.type type).isString = type.isString := by
  cases type <;> simp [Rewriting.type, TypeRef.isString, r.name_classType]

@[simp] theorem hasDefault_parameter (parameter : Parameter) :
    (r.parameter parameter).hasDefault = parameter.hasDefault := by
  simp [Rewriting.parameter, Parameter.hasDefault]

@[simp] theorem parameter_withoutDefault (parameter : Parameter) :
    r.parameter parameter.withoutDefault = (r.parameter parameter).withoutDefault := rfl

section

variable (decl : ClassDecl)

@[simp] theorem name_classDecl : (r.classDecl decl).name = decl.name := by
  rw [classDecl_eq]
  rfl

@[simp] theorem simpleName_classDecl : (r.classDecl decl).simpleName = decl.simpleName := by
  rw [classDecl_eq]
  rfl

@[simp] theorem superName_classDecl : (r.classDecl decl).superName = decl.superName := by
  rw [classDecl_eq, ClassDecl.superName, ClassDecl.superName]
  cases hs : decl.superClass <;> simp [own, hs, r.name_classType]

@[simp] theorem isAnonymous_classDecl : (r.classDecl decl).isAnonymous = decl.isAnonymous := by
  rw [classDecl_eq]
  rfl

@[simp] theorem isEnum_classDecl : (r.classDecl decl).isEnum = decl.isEnum := by
  rw [classDecl_eq]
  rfl

@[simp] theorem isInterface_classDecl : (r.classDecl decl).isInterface = decl.isInterface := by
  rw [classDecl_eq]
  rfl

@[simp] theorem fields_classDecl : (r.classDecl decl).fields = decl.fields.map r.field := by
  rw [classDecl_eq]
  rfl

@[simp] theorem properties_classDecl :
    (r.classDecl decl).properties = decl.properties.map r.property := by
  rw [classDecl_eq]
  rfl

@[simp] theorem methods_classDecl : (r.classDecl decl).methods = decl.methods.map r.method := by
  rw [classDecl_eq]
  rfl

@[simp] theorem constructors_classDecl :
    (r.classDecl decl).constructors = decl.constructors.map r.constructor := by
  rw [classDecl_eq]
  rfl

@[simp] theorem inner_classDecl : (r.classDecl decl).inner = r.classDecls decl.inner := by
  rw [classDecl_eq]

@[simp] theorem declaresMethod_classDecl (name : String) (arity : Nat) :
    (r.classDecl decl).declaresMethod name arity = decl.declaresMethod name arity := by
  simp [ClassDecl.declaresMethod, List.any_map, Function.comp_def, method]

end

/-! ### The members that are made -/

open Normalization

theorem keepDefaulted_map (count : Nat) (parameters : List Parameter) :
    keepDefaulted count (parameters.map r.parameter) =
      (keepDefaulted count parameters).map r.parameter := by
  induction parameters generalizing count with
  | nil => cases count <;> rfl
  | cons parameter rest ih =>
    simp only [List.map_cons, keepDefaulted, hasDefault_parameter]
    split
    · cases count with
      | zero => exact ih 0
      | succ count => exact congrArg _ (ih count)
    · exact congrArg _ (ih count)

theorem overloads_map (parameters : List Parameter) :
    overloads (parameters.map r.parameter) =
      (overloads parameters).map (List.map r.parameter) := by
  have hcount : defaultedCount (parameters.map r.parameter) = defaultedCount parameters := by
    simp [defaultedCount, List.countP_map, Function.comp_def]
  simp [overloads, hcount, keepDefaulted_map, Function.comp_def]

theorem methodOverloads_method (method : MethodDecl) :
    methodOverloads (r.method method) = (methodOverloads method).map r.method := by
  simp [methodOverloads, Rewriting.method, overloads_map, Function.comp_def]

theorem delegationArgument_map (kept : List Parameter) (parameter : Parameter) :
    delegationArgument (kept.map r.parameter) (r.parameter parameter) =
      r.expression (delegationArgument kept parameter) := by
  have hkept : ((kept.map r.parameter).any fun k => k.name == (r.parameter parameter).name) =
      kept.any fun k => k.name == parameter.name := by
    simp [List.any_map, Function.comp_def, Rewriting.parameter]
  unfold delegationArgument
  rw [hkept]
  split
  · rfl
  · cases hd : parameter.default <;> simp [Rewriting.parameter, hd, expression]

theorem constructorOverload_map (constructor : ConstructorDecl) (kept : List Parameter) :
    constructorOverload (r.constructor constructor) (kept.map r.parameter) =
      r.constructor (constructorOverload constructor kept) := by
  simp [constructorOverload, Rewriting.constructor, call, DelegationCall.thisCall,
    Function.comp_def, delegationArgument_map]

theorem constructorOverloads_constructor (constructor : ConstructorDecl) :
    constructorOverloads (r.constructor constructor) =
      (constructorOverloads constructor).map r.constructor := by
  have hoverloads : overloads (r.constructor constructor).parameters =
      (overloads constructor.parameters).map (List.map r.parameter) :=
    r.overloads_map constructor.parameters
  rw [constructorOverloads, constructorOverloads, hoverloads, List.map_map, List.map_map]
  exact List.map_congr_left fun kept _ => r.constructorOverload_map constructor kept

theorem undeclared_map (decl : ClassDecl) (methods : List MethodDecl) :
    undeclared (r.classDecl decl) (methods.map r.method) =
      (undeclared decl methods).map r.method := by
  simp [undeclared, List.filter_map, Function.comp_def, method]

theorem getter_property (property : PropertyDecl) :
    getter (r.property property) = r.method (getter property) := by
  have hmodifiers : accessorModifiers (r.property property) = accessorModifiers property := rfl
  rw [getter, getter, hmodifiers]
  simp [Rewriting.property, method, r.generics_nil]

theorem setter_property (property : PropertyDecl) :
    setter (r.property property) = r.method (setter property) := by
  have hmodifiers : accessorModifiers (r.property property) = accessorModifiers property := rfl
  rw [setter, setter, hmodifiers]
  simp [Rewriting.property, method, r.generics_nil, parameter, Parameter.ofName, TypeRef.void, type]

theorem accessorsOf_property (property : PropertyDecl) :
    accessorsOf (r.property property) = (accessorsOf property).map r.method := by
  have hmodifiers : (r.property property).modifiers = property.modifiers := rfl
  unfold accessorsOf
  rw [getter_property, setter_property, hmodifiers]
  split <;> rfl

theorem accessors_classDecl (decl : ClassDecl) :
    accessors (r.classDecl decl) = (accessors decl).map r.method := by
  rw [accessors, accessors, properties_classDecl, List.flatMap_map, ← undeclared_map,
    List.map_flatMap]
  simp only [accessorsOf_property]

theorem method_helpersOf (name : String) :
    (helpersOf name).map r.method = helpersOf name := by
  simp [helpersOf, method, type, parameter, Parameter.ofName, r.generics_nil]

theorem enumHelpers_classDecl (decl : ClassDecl) :
    enumHelpers (r.classDecl decl) = (enumHelpers decl).map r.method := by
  unfold enumHelpers
  rw [isEnum_classDecl, name_classDecl]
  split
  · rw [← undeclared_map, method_helpersOf]
  · rfl

theorem protocolMethods_classDecl (protocol : List MethodDecl) (decl : ClassDecl) :
    protocolMethods (protocol.map r.method) (r.classDecl decl) =
      (protocolMethods protocol decl).map r.method := by
  unfold protocolMethods
  rw [isInterface_classDecl]
  split
  · rfl
  · exact r.undeclared_map decl protocol

theorem implicitConstructors_classDecl (decl : ClassDecl) :
    implicitConstructors (r.classDecl decl) = (implicitConstructors decl).map r.constructor := by
  have himplicit : r.constructor implicitConstructor = implicitConstructor := rfl
  unfold implicitConstructors
  rw [classDecl_eq]
  simp only [own, List.isEmpty_map]
  split
  · rw [List.map_singleton, himplicit]
  · rfl

/-- What the standard normalization makes for a rewritten class is what it makes for the class,
rewritten. -/
theorem capture_classDecl (protocol : List MethodDecl) (decl : ClassDecl) :
    let made := (capture (.standard protocol) decl).1
    let rewritten := (capture (.standard (protocol.map r.method)) (r.classDecl decl)).1
    rewritten.methods = made.methods.map r.method ∧
      rewritten.constructors = made.constructors.map r.constructor := by
  intro made rewritten
  constructor
  · simp only [made, rewritten, methods_capture, accessors_classDecl, enumHelpers_classDecl,
      protocolMethods_classDecl, methods_classDecl, List.flatMap_map, methodOverloads_method,
      List.map_append, List.map_flatMap]
  · simp only [made, rewritten, constructors_capture, implicitConstructors_classDecl,
      constructors_classDecl, List.flatMap_map, constructorOverloads_constructor, List.map_append,
      List.map_flatMap]

end Rewriting

end JavaStubs
