import JavaStubs.Normalization.Capture
import JavaStubs.Source.Member
import JavaStubs.Stubs.Delegation

/-!
# Printing declarations

A declaration is printed as a block: its header, then its enum constants, fields, constructors and
methods, then its nested classes in the same way. Members that a normalization makes for a class
come before the ones it declares. What no other source file can use is left out: private and
synthetic fields, private methods, methods whose name is no identifier, and anonymous classes.

Each class in the tree is normalized as it is printed; the printer gives back the tree that results.
-/
namespace JavaStubs.Stubs

open Normalization (Members Transform)
open Source (ConstructorText Dialect FieldLine Header MethodBody MethodLine ParameterText)

/-- Whether a method appears in a stub. -/
def isPrintable (method : MethodDecl) : Bool :=
  method.name != Names.staticInitializer && !method.isPrivate && Names.isIdentifier method.name

/-- Whether every enum has the method without declaring it. -/
def isImplicitInEnum (method : MethodDecl) : Bool :=
  method.isSynthetic &&
    match method.name, method.parameters with
    | "values", [] => true
    | "valueOf", [parameter] => parameter.type.isString
    | _, _ => false

/-- What printing depends on. -/
structure Printer where
  dialect : Dialect := {}
  index : ClassIndex := ClassIndex.empty
  transform : Transform := Transform.standard []
  strategies : List CallStrategy := CallStrategy.usual

namespace Printer

/-- The opening line. Only an ordinary class names a super class, and only it can be abstract. -/
def header (p : Printer) (decl : ClassDecl) : Header :=
  { kind := decl.kind
    name := decl.simpleName
    modifiers := if decl.kind = .ordinary then decl.modifiers else decl.modifiers.erase .abstract
    generics := p.dialect.genericsText decl.generics
    superClass :=
      if decl.kind = .ordinary then
        some (p.dialect.classText (decl.superClass.getD ClassType.object))
      else none
    interfaces := decl.interfaces.map p.dialect.classText }

/-- The names of the enum constants of a class. -/
def constantNames (decl : ClassDecl) : List String :=
  (decl.fields.filter FieldDecl.enumConstant).map FieldDecl.name

/-- The list of constants. The body of an enum always has one, to set off the other members. -/
def constants (decl : ClassDecl) : List Fragment :=
  if (constantNames decl).isEmpty && !decl.isEnum then []
  else [.line (Source.constantsText (constantNames decl))]

/-- The fields that appear in a stub. -/
def visibleFields (decl : ClassDecl) : List FieldDecl :=
  decl.fields.filter fun f => !f.enumConstant && !f.isSynthetic && !f.modifiers.isPrivate

/-- A field. Those of an interface are final and need a value. -/
def fieldLine (p : Printer) (decl : ClassDecl) (field : FieldDecl) : FieldLine :=
  { type := p.dialect.typeText field.type
    name := field.name
    modifiers := field.modifiers
    value := if decl.isInterface then some (p.dialect.defaultValue field.type) else none }

/-- The text of a parameter. -/
def parameterText (p : Printer) (parameter : Parameter) : ParameterText :=
  ⟨p.dialect.typeText parameter.type, parameter.name⟩

/-- A constructor. -/
def constructorText (p : Printer) (decl : ClassDecl) (constructor : ConstructorDecl) :
    ConstructorText :=
  { className := decl.simpleName
    parameters := constructor.parameters.map p.parameterText
    exceptions := constructor.exceptions.map p.dialect.classText
    delegation := constructor.firstCall.map fun call =>
      CallSite.chosenCall ⟨decl, constructor, call, p.index, p.dialect⟩ p.strategies }

/-- The constructors that appear in the stub of a class; an enum has none. -/
def visibleConstructors (decl : ClassDecl) (made : Members) : List ConstructorDecl :=
  if decl.isEnum then [] else made.constructors ++ decl.constructors

/-- The methods that appear in the stub of a class. -/
def visibleMethods (decl : ClassDecl) (made : Members) : List MethodDecl :=
  (made.methods ++ decl.methods).filter fun m =>
    isPrintable m && !(decl.isEnum && isImplicitInEnum m)

/-- Whether a method of the class is printed without a body. -/
def isBodiless (decl : ClassDecl) (method : MethodDecl) : Bool :=
  decl.isInterface || method.isAbstract

/-- What follows the signature of a method. -/
def methodBody (p : Printer) (decl : ClassDecl) (method : MethodDecl) : MethodBody :=
  if isBodiless decl method then .absent
  else if method.returnType.isVoid then .empty
  else .returning (p.dialect.defaultValue method.returnType)

/-- A method. Those of an interface have no modifiers. -/
def methodLine (p : Printer) (decl : ClassDecl) (method : MethodDecl) : MethodLine :=
  { name := method.name
    modifiers :=
      if decl.isInterface then {}
      else method.modifiers.set .abstract (isBodiless decl method)
    generics := p.dialect.genericsText method.generics
    returnType := p.dialect.typeText method.returnType
    parameters := method.parameters.map p.parameterText
    exceptions := method.exceptions.map p.dialect.classText
    body := p.methodBody decl method }

/-- The members of a class itself, without its nested classes. -/
def ownMembers (p : Printer) (decl : ClassDecl) (made : Members) : List Fragment :=
  constants decl ++
  (visibleFields decl).map (fun f => (p.fieldLine decl f).fragment) ++
  (visibleConstructors decl made).map (fun c => (p.constructorText decl c).fragment) ++
  (visibleMethods decl made).map (fun m => (p.methodLine decl m).fragment)

mutual

/-- A class as fragments, and the class afterwards. -/
def print (p : Printer) (decl : ClassDecl) : List Fragment × ClassDecl :=
  match decl with
  | { inner, .. } =>
    if decl.isAnonymous then ([], decl)
    else
      let (made, changed) := Normalization.capture p.transform decl
      let (nested, inner) := p.printAll inner
      ([.block (p.header changed).text (p.ownMembers changed made ++ nested)],
        { changed with inner })

/-- Classes one after the other, and the classes afterwards. -/
def printAll (p : Printer) : List ClassDecl → List Fragment × List ClassDecl
  | [] => ([], [])
  | decl :: rest =>
    let (first, decl) := p.print decl
    let (others, rest) := p.printAll rest
    (first ++ others, decl :: rest)

end

/-- Prints a class at the end of a text. -/
def printInto (p : Printer) (decl : ClassDecl) (out : Layout) : Layout × ClassDecl :=
  let (fragments, decl) := p.print decl
  (out.addAll fragments, decl)

end Printer

end JavaStubs.Stubs
