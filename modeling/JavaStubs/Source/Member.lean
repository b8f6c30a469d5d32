import JavaStubs.Layout
import JavaStubs.Model.Declaration

/-!
# Declarations as lines

The opening line of a class and the lines of its members. The types and values in them are texts
already; what is fixed here is the order of the parts and the words and signs between them.
-/
namespace JavaStubs.Source

/-- The keywords of modifiers, each followed by a space. -/
def modifierText (modifiers : Modifiers) : String :=
  String.join (modifiers.keywords.map (· ++ " "))

/-- A parameter: its type and its name. -/
structure ParameterText where
  type : String
  name : String

def ParameterText.text (parameter : ParameterText) : String :=
  parameter.type ++ " " ++ parameter.name

/-- The parameters between parentheses. -/
def parametersText (parameters : List ParameterText) : String :=
  "(" ++ Text.join ", " (parameters.map ParameterText.text) ++ ")"

/-- The exceptions after `throws`; nothing if there are none. -/
def throwsText (exceptions : List String) : String :=
  if exceptions.isEmpty then "" else " throws " ++ Text.join ", " exceptions

/-- The opening line of a class, interface or enum. -/
structure Header where
  kind : ClassKind
  name : String
  modifiers : Modifiers := {}
  /-- The list of type variables in angle brackets, or nothing. -/
  generics : String := ""
  superClass : Option String := none
  interfaces : List String := []

namespace Header

/-- The keyword before the interfaces: an interface extends others, a class implements them. -/
def beforeInterfaces (header : Header) : String :=
  if header.kind = .interface then "extends" else "implements"

/-- The line, which ends with the opening brace. -/
def text (header : Header) : String :=
  modifierText header.modifiers ++ header.kind.keyword ++ " " ++ header.name ++ header.generics ++
    (match header.superClass with
      | some superClass => " extends " ++ superClass
      | none => "") ++
    (if header.interfaces.isEmpty then ""
      else " " ++ header.beforeInterfaces ++ " " ++ Text.join ", " header.interfaces) ++
    " \x7b"

end Header

/-- A field, with a value where the language demands one. -/
structure FieldLine where
  type : String
  name : String
  modifiers : Modifiers := {}
  value : Option String := none

namespace FieldLine

def text (field : FieldLine) : String :=
  modifierText field.modifiers ++ field.type ++ " " ++ field.name ++
    (match field.value with
      | some value => " = " ++ value
      | none => "") ++ ";"

def fragment (field : FieldLine) : Fragment := .line field.text

end FieldLine

/-- The list of enum constants, which ends with a semicolon even if it is empty. -/
def constantsText (names : List String) : String :=
  Text.join ", " names ++ ";"

/-- What follows the signature of a method. -/
inductive MethodBody where
  /-- Only a semicolon. -/
  | absent
  | empty
  /-- A return statement with that value. -/
  | returning (value : String)
  deriving DecidableEq, Repr

def MethodBody.text : MethodBody → String
  | .absent => ";"
  | .empty => " \x7b \x7d"
  | .returning value => " \x7b return " ++ value ++ "; \x7d"

/-- A method on one line. -/
structure MethodLine where
  name : String
  modifiers : Modifiers := {}
  /-- The list of type variables in angle brackets, or nothing. -/
  generics : String := ""
  returnType : String := "void"
  parameters : List ParameterText := []
  exceptions : List String := []
  body : MethodBody := .empty

namespace MethodLine

def text (method : MethodLine) : String :=
  modifierText method.modifiers ++
    (if method.generics.isEmpty then "" else method.generics ++ " ") ++
    method.returnType ++ " " ++ method.name ++ parametersText method.parameters ++
    throwsText method.exceptions ++ method.body.text

def fragment (method : MethodLine) : Fragment := .line method.text

end MethodLine

/-- A constructor, which is always public, with its first statement if it has one. -/
structure ConstructorText where
  className : String
  parameters : List ParameterText := []
  exceptions : List String := []
  delegation : Option String := none

namespace ConstructorText

def signature (constructor : ConstructorText) : String :=
  "public " ++ constructor.className ++ parametersText constructor.parameters ++
    throwsText constructor.exceptions

/-- One line if there is nothing to call, else a block with the call. -/
def fragment (constructor : ConstructorText) : Fragment :=
  match constructor.delegation with
  | none => .line (constructor.signature ++ " \x7b \x7d")
  | some call => .block (constructor.signature ++ " \x7b") [.line call]

def text (constructor : ConstructorText) : String :=
  (Layout.empty.add constructor.fragment).text

end ConstructorText

end JavaStubs.Source
