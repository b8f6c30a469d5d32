import JavaStubs.Model.Types

/-!
# The text of types

Types as source code, in two dialects. With generics, type variables appear by name and lists of
arguments and bounds in angle brackets; without them, a type variable appears as its erasure and
nothing else of generics appears.
-/
namespace JavaStubs.Source

/-- The dialect in which types are written. -/
structure Dialect where
  generics : Bool := true
  deriving DecidableEq, Repr

namespace Dialect

/-- The dialect without generics. -/
def erased : Dialect := ⟨false⟩

mutual

/-- The text of a type. -/
def typeText (dialect : Dialect) : TypeRef → String
  | .primitive type => type.keyword
  | .named type => dialect.classText type
  | .array component => dialect.typeText component ++ "[]"
  | .placeholder name erasure => if dialect.generics then name else dialect.classText erasure

/-- The text of a class with its arguments. -/
def classText (dialect : Dialect) : ClassType → String
  | { name, generics, .. } =>
    if Names.nonGeneric.contains name then Names.sourceName name
    else Names.sourceName name ++ dialect.genericsText generics

/-- A list of generic parameters or arguments in angle brackets; empty if there are none. -/
def genericsText (dialect : Dialect) (generics : List Generic) : String :=
  if !dialect.generics || generics.isEmpty then ""
  else "<" ++ Text.join ", " (dialect.genericTexts generics) ++ ">"

/-- The text of each generic parameter or argument. -/
def genericTexts (dialect : Dialect) : List Generic → List String
  | [] => []
  | generic :: rest => dialect.genericText generic :: dialect.genericTexts rest

/-- The text of a generic parameter or argument. Upper bounds hide a lower one. -/
def genericText (dialect : Dialect) : Generic → String
  | { name, type, upperBounds, lowerBound } =>
    (match type with
      | some type => dialect.typeText type
      | none => name) ++
    (match upperBounds, lowerBound with
      | [], none => ""
      | [], some bound => " super " ++ dialect.typeText bound
      | bounds, _ => " extends " ++ Text.join " & " (dialect.typeTexts bounds))

/-- The text of each type. -/
def typeTexts (dialect : Dialect) : List TypeRef → List String
  | [] => []
  | type :: rest => dialect.typeText type :: dialect.typeTexts rest

end

/-- A value of the type that any call accepts. All but those of the universal super class are cast
to their type, so that they choose between overloads. -/
def defaultValue (dialect : Dialect) (type : TypeRef) : String :=
  let value := if type.isBoolean then "false" else if type.isPrimitive then "0" else "null"
  if type.isObject then value else "(" ++ dialect.typeText type ++ ")" ++ value

end Dialect

end JavaStubs.Source
