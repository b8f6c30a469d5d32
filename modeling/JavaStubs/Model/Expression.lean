import JavaStubs.Model.Types

/-!
# Expressions

As much of an expression as a stub can use: constants, parameters by name, and for anything else
its static type. Floating point constants are held as bit patterns.
-/
namespace JavaStubs

/-- A constant. -/
inductive Literal where
  | null
  | bool (value : Bool)
  | int (value : Int64)
  /-- A single precision value, by its bits. -/
  | float (bits : UInt32)
  /-- A double precision value, by its bits. -/
  | double (bits : UInt64)
  | char (value : Char)
  | string (value : String)
  deriving DecidableEq

/-- Whether the constant is a string. -/
def Literal.isString : Literal → Bool
  | .string _ => true
  | _ => false

/-- An argument of a delegation call or a default value. -/
inductive Expression where
  | constant (value : Literal)
  /-- A variable, most often a parameter. -/
  | reference (name : String) (type : TypeRef)
  /-- An expression that is known by its type only. -/
  | other (type : TypeRef)

instance : Inhabited Expression := ⟨.constant .null⟩

end JavaStubs
