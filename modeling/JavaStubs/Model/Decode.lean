import JavaStubs.Json.Decode
import JavaStubs.Model.Unit

/-!
# Reading a model from JSON

One decoder per type of the model. The first argument is the number of lists and objects that may
still be nested: a decoder of a record hands its fields one less, and at zero no list or object is
entered. Fields of a record may stand in any order; those with a default may be left out, and
unknown ones are skipped.
-/
namespace JavaStubs

open Json (Tree Decoded Slot Variant)
open Json.Slot (needed defaulted)

namespace Decode

/-- A list with one level less for its items. -/
def listOf {α : Type} (item : Nat → Tree → Decoded α) : Nat → Tree → Decoded (List α)
  | 0 => Json.Decode.list false (item 0)
  | n + 1 => Json.Decode.list true (item n)

/-- A record with one level less for its fields. -/
def recordOf {σ : Type} (title : String) (initial : σ) (slots : Nat → List (Slot σ)) :
    Nat → Tree → Decoded σ
  | 0 => Json.Decode.record false title initial (slots 0)
  | n + 1 => Json.Decode.record true title initial (slots n)

/-- One of several variants with one level less for their contents. -/
def oneOf {α : Type} (variants : Nat → List (Variant α)) : Nat → Tree → Decoded α
  | 0 => Json.Decode.oneOf false (variants 0)
  | n + 1 => Json.Decode.oneOf true (variants n)

/-- What is never reached, since no list or object is entered. -/
def tooDeep {α : Type} (tree : Tree) : Decoded α :=
  Json.Problem.flawed .tooDeep tree.looked

/-- One of several variants that hold nothing. -/
def choice {α : Type} (named : List (String × α)) : Nat → Tree → Decoded α :=
  oneOf fun _ => named.map fun (name, value) => ⟨name, .none value⟩

def modifiers : Tree → Decoded Modifiers :=
  Json.Decode.scalar "a string value of `|` separated flags" fun value pos =>
    match value with
    | .text s =>
      match Modifiers.parse s with
      | .ok modifiers => some (.ok modifiers)
      | .error problem => some (Json.Problem.complain (.unreadable problem.message) pos)
    | _ => none

def primitive : Nat → Tree → Decoded Primitive :=
  choice
    [("boolean", .boolean), ("char", .char), ("byte", .byte), ("short", .short), ("int", .int),
     ("long", .long), ("float", .float), ("double", .double), ("void", .void)]

/-- The fields of a type variable. -/
def placeholderSlots (classType : Tree → Decoded ClassType) : List (Slot (String × ClassType)) :=
  [needed "name" Json.Decode.text fun v s => (v, s.2),
   needed "erasure" classType fun v s => (s.1, v)]

/-- The forms of a type, given decoders for what they hold: a primitive type, a class, a type, and
the fields of a type variable. -/
def typeVariants (primitive : Tree → Decoded Primitive) (classType : Tree → Decoded ClassType)
    (typeRef : Tree → Decoded TypeRef) (placeholder : Tree → Decoded (String × ClassType)) :
    List (Variant TypeRef) :=
  [⟨"primitive", .value fun tree => (primitive tree).map .primitive⟩,
   ⟨"class", .value fun tree => (classType tree).map .named⟩,
   ⟨"array", .value fun tree => (typeRef tree).map .array⟩,
   ⟨"placeholder", .fields fun tree =>
      (placeholder tree).map fun (name, erasure) => .placeholder name erasure⟩]

/-- What a type variable's fields are called together. -/
def placeholderTitle : String := "struct variant TypeRef::Placeholder"

def classTypeSlots (generics : Tree → Decoded (List Generic)) : List (Slot ClassType) :=
  [needed "name" Json.Decode.text fun v s => { s with name := v },
   defaulted "generics" generics fun v s => { s with generics := v },
   defaulted "resolved" Json.Decode.boolean fun v s => { s with resolved := v }]

def genericSlots (typeRef : Tree → Decoded TypeRef) (typeRefs : Tree → Decoded (List TypeRef)) :
    List (Slot Generic) :=
  [defaulted "name" Json.Decode.text fun v s => { s with name := v },
   defaulted "ty" (Json.Decode.optional typeRef) fun v s => { s with type := v },
   defaulted "upper_bounds" typeRefs fun v s => { s with upperBounds := v },
   defaulted "lower_bound" (Json.Decode.optional typeRef) fun v s => { s with lowerBound := v }]

mutual

def typeRef : Nat → Tree → Decoded TypeRef
  | 0 => Json.Decode.oneOf false (typeVariants tooDeep tooDeep tooDeep tooDeep)
  | n + 1 => Json.Decode.oneOf true
      (typeVariants (primitive n) (classType n) (typeRef n)
        (match n with
          | 0 => Json.Decode.record false placeholderTitle ("", default) (placeholderSlots tooDeep)
          | m + 1 =>
            Json.Decode.record true placeholderTitle ("", default)
              (placeholderSlots (classType m))))

def classType : Nat → Tree → Decoded ClassType
  | 0 => Json.Decode.record false "struct ClassType" default (classTypeSlots tooDeep)
  | n + 1 => Json.Decode.record true "struct ClassType" default
      (classTypeSlots
        (match n with
          | 0 => Json.Decode.list false tooDeep
          | m + 1 => Json.Decode.list true (generic m)))

def generic : Nat → Tree → Decoded Generic
  | 0 => Json.Decode.record false "struct GenericsType" {} (genericSlots tooDeep tooDeep)
  | n + 1 => Json.Decode.record true "struct GenericsType" {}
      (genericSlots (typeRef n)
        (match n with
          | 0 => Json.Decode.list false tooDeep
          | m + 1 => Json.Decode.list true (typeRef m)))

end

def literal : Nat → Tree → Decoded Literal :=
  oneOf fun _ =>
    [⟨"null", .none .null⟩,
     ⟨"bool", .value fun tree => (Json.Decode.boolean tree).map .bool⟩,
     ⟨"int", .value fun tree => (Json.Decode.int64 tree).map .int⟩,
     ⟨"float", .value fun tree => (Json.Decode.single tree).map .float⟩,
     ⟨"double", .value fun tree => (Json.Decode.double tree).map .double⟩,
     ⟨"char", .value fun tree => (Json.Decode.character tree).map .char⟩,
     ⟨"str", .value fun tree => (Json.Decode.text tree).map .string⟩]

/-- The fields of a variable: its name and type. -/
def reference : Nat → Tree → Decoded (String × TypeRef) :=
  recordOf "struct variant Expression::Variable" ("", default) fun n =>
    [needed "name" Json.Decode.text fun v s => (v, s.2),
     needed "ty" (typeRef n) fun v s => (s.1, v)]

/-- The field of an expression that is known by its type. -/
def otherType : Nat → Tree → Decoded TypeRef :=
  recordOf "struct variant Expression::Other" default fun n =>
    [needed "ty" (typeRef n) fun v _ => v]

def expression : Nat → Tree → Decoded Expression :=
  oneOf fun n =>
    [⟨"constant", .value fun tree => (literal n tree).map .constant⟩,
     ⟨"variable", .fields fun tree =>
        (reference n tree).map fun (name, type) => .reference name type⟩,
     ⟨"other", .fields fun tree => (otherType n tree).map .other⟩]

def parameter : Nat → Tree → Decoded Parameter :=
  recordOf "struct Parameter" { name := "", type := default } fun n =>
    [needed "name" Json.Decode.text fun v s => { s with name := v },
     needed "ty" (typeRef n) fun v s => { s with type := v },
     defaulted "default" (Json.Decode.optional (expression n)) fun v s => { s with default := v }]

def fieldDecl : Nat → Tree → Decoded FieldDecl :=
  recordOf "struct FieldDecl" { name := "", type := default } fun n =>
    [needed "name" Json.Decode.text fun v s => { s with name := v },
     needed "ty" (typeRef n) fun v s => { s with type := v },
     defaulted "modifiers" modifiers fun v s => { s with modifiers := v },
     defaulted "enum_constant" Json.Decode.boolean fun v s => { s with enumConstant := v }]

def propertyDecl : Nat → Tree → Decoded PropertyDecl :=
  recordOf "struct PropertyDecl" { name := "", type := default } fun n =>
    [needed "name" Json.Decode.text fun v s => { s with name := v },
     needed "ty" (typeRef n) fun v s => { s with type := v },
     defaulted "modifiers" modifiers fun v s => { s with modifiers := v }]

def methodDecl : Nat → Tree → Decoded MethodDecl :=
  recordOf "struct MethodDecl" { name := "" } fun n =>
    [needed "name" Json.Decode.text fun v s => { s with name := v },
     defaulted "modifiers" modifiers fun v s => { s with modifiers := v },
     defaulted "return_type" (typeRef n) fun v s => { s with returnType := v },
     defaulted "parameters" (listOf parameter n) fun v s => { s with parameters := v },
     defaulted "generics" (listOf generic n) fun v s => { s with generics := v },
     defaulted "exceptions" (listOf classType n) fun v s => { s with exceptions := v },
     defaulted "has_body" Json.Decode.boolean fun v s => { s with hasBody := v }]

def callTarget : Nat → Tree → Decoded CallTarget :=
  choice [("super", .superClass), ("this", .sameClass)]

def delegationCall : Nat → Tree → Decoded DelegationCall :=
  recordOf "struct SpecialCall" { target := .superClass } fun n =>
    [needed "kind" (callTarget n) fun v s => { s with target := v },
     defaulted "arguments" (listOf expression n) fun v s => { s with arguments := v }]

def constructorDecl : Nat → Tree → Decoded ConstructorDecl :=
  recordOf "struct ConstructorDecl" {} fun n =>
    [defaulted "modifiers" modifiers fun v s => { s with modifiers := v },
     defaulted "parameters" (listOf parameter n) fun v s => { s with parameters := v },
     defaulted "exceptions" (listOf classType n) fun v s => { s with exceptions := v },
     defaulted "first_call" (Json.Decode.optional (delegationCall n)) fun v s =>
       { s with firstCall := v }]

def classKind : Nat → Tree → Decoded ClassKind :=
  choice [("class", .ordinary), ("interface", .interface), ("enum", .enumeration)]

def nesting : Nat → Tree → Decoded Nesting :=
  choice [("top_level", .topLevel), ("member", .member), ("anonymous", .anonymous)]

/-- The fields of a class at a level of nesting, given a decoder for its nested classes. -/
def classSlots (n : Nat) (inner : Tree → Decoded (List ClassDecl)) : List (Slot ClassDecl) :=
  [needed "name" Json.Decode.text fun v s => { s with name := v },
   defaulted "package" (Json.Decode.optional Json.Decode.text) fun v s => { s with package := v },
   defaulted "modifiers" modifiers fun v s => { s with modifiers := v },
   defaulted "kind" (classKind n) fun v s => { s with kind := v },
   defaulted "nesting" (nesting n) fun v s => { s with nesting := v },
   defaulted "super_class" (Json.Decode.optional (classType n)) fun v s =>
     { s with superClass := v },
   defaulted "interfaces" (listOf classType n) fun v s => { s with interfaces := v },
   defaulted "generics" (listOf generic n) fun v s => { s with generics := v },
   defaulted "fields" (listOf fieldDecl n) fun v s => { s with fields := v },
   defaulted "properties" (listOf propertyDecl n) fun v s => { s with properties := v },
   defaulted "methods" (listOf methodDecl n) fun v s => { s with methods := v },
   defaulted "constructors" (listOf constructorDecl n) fun v s => { s with constructors := v },
   defaulted "inner" inner fun v s => { s with inner := v }]

def classDecl : Nat → Tree → Decoded ClassDecl
  | 0 => Json.Decode.record false "struct ClassDecl" { name := "" } (classSlots 0 tooDeep)
  | n + 1 => Json.Decode.record true "struct ClassDecl" { name := "" }
      (classSlots n
        (match n with
          | 0 => Json.Decode.list false tooDeep
          | m + 1 => Json.Decode.list true (classDecl m)))

def importSet : Nat → Tree → Decoded ImportSet :=
  recordOf "struct ImportSet" {} fun n =>
    [defaulted "star_imports" (listOf (fun _ => Json.Decode.text) n) fun v s =>
       { s with starImports := v },
     defaulted "imports" (listOf (fun _ => Json.Decode.text) n) fun v s => { s with imports := v }]

def sourceUnit : Nat → Tree → Decoded SourceUnit :=
  recordOf "struct SourceUnit" {} fun n =>
    [defaulted "imports" (importSet n) fun v s => { s with imports := v },
     defaulted "classes" (listOf classDecl n) fun v s => { s with classes := v }]

def externalClass : Nat → Tree → Decoded ExternalClass :=
  recordOf "struct ExternalClass" { name := "" } fun n =>
    [needed "name" Json.Decode.text fun v s => { s with name := v },
     defaulted "constructors" (listOf constructorDecl n) fun v s => { s with constructors := v }]

def declarationModel : Nat → Tree → Decoded DeclarationModel :=
  recordOf "struct DeclarationModel" {} fun n =>
    [defaulted "units" (listOf sourceUnit n) fun v s => { s with units := v },
     defaulted "external" (listOf externalClass n) fun v s => { s with external := v }]

end Decode

end JavaStubs
