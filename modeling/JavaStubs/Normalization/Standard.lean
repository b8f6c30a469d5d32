import JavaStubs.Normalization.Policy
import JavaStubs.Text.Uppercase

/-!
# The standard normalization

Makes the members that a front end leaves implicit: accessors of properties, the constructor of a
class without any, overloads for default arguments, the helpers of an enum, and methods of an
object protocol that every class has. A method that the class declares itself, by name and number
of parameters, is not made; overloads are always made.

The class itself gets a time stamp field and a static initializer if the policy allows them.
-/
namespace JavaStubs.Normalization

/-- The field that holds the time stamp. -/
def timestampField : FieldDecl :=
  { name := Names.timestampField
    type := .long
    modifiers := .ofList [.publicAccess, .static, .synthetic] }

/-- The class with a time stamp; only one of them. -/
def withTimestamp (decl : ClassDecl) : ClassDecl :=
  if decl.declaresField Names.timestampField then decl else decl.addField timestampField

/-- The method that stands for the static initializer. -/
def staticInitializer : MethodDecl :=
  { name := Names.staticInitializer, modifiers := .ofList [.static] }

/-- Whether the field is initialized with its class. -/
def needsInitializer (field : FieldDecl) : Bool :=
  field.modifiers.isStatic && !field.isSynthetic

/-- The class with a static initializer, if it has static fields and declares none. -/
def withStaticInitializer (decl : ClassDecl) : ClassDecl :=
  if decl.fields.any needsInitializer && !decl.declaresMethod Names.staticInitializer 0 then
    decl.addMethod staticInitializer
  else decl

/-- The methods that the class does not declare. -/
def undeclared (decl : ClassDecl) (methods : List MethodDecl) : List MethodDecl :=
  methods.filter fun m => !decl.declaresMethod m.name m.parameters.length

/-- The modifiers of the accessors of a property. -/
def accessorModifiers (property : PropertyDecl) : Modifiers :=
  .ofList (if property.modifiers.isStatic then [.publicAccess, .static] else [.publicAccess])

/-- The method that reads a property. -/
def getter (property : PropertyDecl) : MethodDecl :=
  { name := (if property.type.isBoolean then "is" else "get") ++ Text.capitalize property.name
    modifiers := accessorModifiers property
    returnType := property.type }

/-- The method that writes a property. -/
def setter (property : PropertyDecl) : MethodDecl :=
  { name := "set" ++ Text.capitalize property.name
    modifiers := accessorModifiers property
    parameters := [.ofName "value" property.type] }

/-- The accessors of a property: a final property is not written. -/
def accessorsOf (property : PropertyDecl) : List MethodDecl :=
  if property.modifiers.contains .final then [getter property]
  else [getter property, setter property]

/-- The accessors that are made for a class. -/
def accessors (decl : ClassDecl) : List MethodDecl :=
  undeclared decl (decl.properties.flatMap accessorsOf)

/-- The helpers of the enum of that name. -/
def helpersOf (name : String) : List MethodDecl :=
  let self := TypeRef.ofName name
  [{ name := "values"
     modifiers := .ofList [.publicAccess, .static, .synthetic]
     returnType := .array self },
   { name := "valueOf"
     modifiers := .ofList [.publicAccess, .static, .synthetic]
     returnType := self
     parameters := [.ofName "name" .string] },
   { name := "next"
     modifiers := .ofList [.publicAccess, .synthetic]
     returnType := self },
   { name := "previous"
     modifiers := .ofList [.publicAccess, .synthetic]
     returnType := self }]

/-- The helpers that are made for a class. -/
def enumHelpers (decl : ClassDecl) : List MethodDecl :=
  if decl.isEnum then undeclared decl (helpersOf decl.name) else []

/-- The methods of the object protocol that are made for a class; an interface gets none. -/
def protocolMethods (protocol : List MethodDecl) (decl : ClassDecl) : List MethodDecl :=
  if decl.isInterface then [] else undeclared decl protocol

/-- The constructor of a class that declares none: public, without parameters, and it calls the
super class. -/
def implicitConstructor : ConstructorDecl :=
  { modifiers := .ofList [.publicAccess], firstCall := some (.superCall []) }

/-- The implicit constructor, if the class has one. -/
def implicitConstructors (decl : ClassDecl) : List ConstructorDecl :=
  if decl.kind = .ordinary ∧ decl.constructors.isEmpty then [implicitConstructor] else []

/-- A method's overloads, and the method afterwards. -/
def expandMethod (policy : Policy) (method : MethodDecl) : List MethodDecl × MethodDecl :=
  if method.hasDefaults then
    let expansion := policy.expand expandDefaults method.parameters
    (expansion.overloads.map fun parameters => { method with parameters },
      { method with parameters := expansion.parameters })
  else ([], method)

/-- The argument of an overload's call for one parameter of the full constructor: the parameter
itself if the overload has one of its name, else the default. -/
def delegationArgument (kept : List Parameter) (parameter : Parameter) : Expression :=
  if kept.any fun k => k.name == parameter.name then .reference parameter.name parameter.type
  else parameter.default.getD (.other parameter.type)

/-- The overload of a constructor with those parameters, which calls the full constructor. -/
def constructorOverload (constructor : ConstructorDecl) (kept : List Parameter) :
    ConstructorDecl :=
  { constructor with
    parameters := kept
    firstCall := some (.thisCall (constructor.parameters.map (delegationArgument kept))) }

/-- A constructor's overloads, and the constructor afterwards. -/
def expandConstructor (policy : Policy) (constructor : ConstructorDecl) :
    List ConstructorDecl × ConstructorDecl :=
  if constructor.hasDefaults then
    let expansion := policy.expand expandDefaults constructor.parameters
    (expansion.overloads.map (constructorOverload constructor),
      { constructor with parameters := expansion.parameters })
  else ([], constructor)

/-- What the policy lets the class itself become before any member is made. -/
def prepare (policy : Policy) (decl : ClassDecl) : ClassDecl :=
  let stamped :=
    if policy.keepTimestamp decl && decl.kind == .ordinary then withTimestamp decl else decl
  if policy.keepInitializers stamped then withStaticInitializer stamped else stamped

/-- Visits a class with that object protocol. -/
def visit (protocol : List MethodDecl) (policy : Policy) (decl : ClassDecl) : Visit :=
  let prepared := prepare policy decl
  let methods := prepared.methods.map (expandMethod policy)
  let constructors := prepared.constructors.map (expandConstructor policy)
  { events :=
      [.askedTimestamp decl.name, .askedInitializers decl.name] ++
      (implicitConstructors prepared).map .constructor ++
      (accessors prepared).map .accessor ++
      (enumHelpers prepared).map .method ++
      (protocolMethods protocol prepared).map .method ++
      (methods.flatMap Prod.fst).map .method ++
      (constructors.flatMap Prod.fst).map .constructor
    decl :=
      { prepared with
        methods := methods.map Prod.snd
        constructors := constructors.map Prod.snd } }

theorem inner_withTimestamp (decl : ClassDecl) : (withTimestamp decl).inner = decl.inner := by
  unfold withTimestamp
  split <;> rfl

theorem inner_withStaticInitializer (decl : ClassDecl) :
    (withStaticInitializer decl).inner = decl.inner := by
  unfold withStaticInitializer
  split <;> rfl

theorem inner_prepare (policy : Policy) (decl : ClassDecl) :
    (prepare policy decl).inner = decl.inner := by
  simp only [prepare]
  split <;> split <;> simp [inner_withTimestamp, inner_withStaticInitializer]

/-- The standard normalization with that object protocol. -/
def Transform.standard (protocol : List MethodDecl) : Transform where
  visit := Normalization.visit protocol
  inner_visit policy decl := inner_prepare policy decl

end JavaStubs.Normalization
