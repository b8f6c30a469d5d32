import JavaStubs.Text.Letter
import JavaStubs.Text.Numeral
import JavaStubs.Text.Split

/-!
# Names

Which names Java accepts as identifiers, and how a qualified binary name, whose nested classes are
marked by `$`, is spelled in source.
-/
namespace JavaStubs.Names

/-- The words that cannot be identifiers: keywords, then the literals. -/
def reservedWords : List String :=
  ["abstract", "assert", "boolean", "break", "byte", "case", "catch", "char", "class", "const",
   "continue", "default", "do", "double", "else", "enum", "extends", "final", "finally", "float",
   "for", "goto", "if", "implements", "import", "instanceof", "int", "interface", "long",
   "native", "new", "package", "private", "protected", "public", "return", "short", "static",
   "strictfp", "super", "switch", "synchronized", "this", "throw", "throws", "transient", "try",
   "void", "volatile", "while",
   "true", "false", "null"]

/-- Whether the name is a keyword or a literal. -/
def isReserved (name : String) : Bool :=
  reservedWords.contains name

/-- Whether an identifier may begin with the character. -/
def isIdentifierStart (c : Char) : Bool :=
  Text.isLetter c || c == '_' || c == '$'

/-- Whether an identifier may go on with the character. -/
def isIdentifierPart (c : Char) : Bool :=
  Text.isLetter c || Text.isNumeral c || c == '_' || c == '$'

theorem isIdentifierPart_of_isIdentifierStart {c : Char} (h : isIdentifierStart c = true) :
    isIdentifierPart c = true := by
  simp only [isIdentifierStart, isIdentifierPart, Bool.or_eq_true] at *
  rcases h with (h | h) | h <;> simp [h]

/-- Whether the name is an identifier: a start character, then part characters, and no reserved
word. -/
def isIdentifier (name : String) : Bool :=
  match name.toList with
  | [] => false
  | first :: rest => isIdentifierStart first && rest.all isIdentifierPart && !isReserved name

theorem not_isReserved_of_isIdentifier {name : String} (h : isIdentifier name = true) :
    isReserved name = false := by
  unfold isIdentifier at h
  split at h <;> simp_all

/-- The first character of an identifier could stand anywhere in it. -/
theorem isIdentifierPart_of_mem {name : String} (h : isIdentifier name = true) {c : Char}
    (hc : c ∈ name.toList) : isIdentifierPart c = true := by
  unfold isIdentifier at h
  split at h
  · cases h
  · rename_i first rest heq
    simp only [Bool.and_eq_true, List.all_eq_true] at h
    rw [heq, List.mem_cons] at hc
    rcases hc with rfl | hc
    · exact isIdentifierPart_of_isIdentifierStart h.1.1
    · exact h.1.2 c hc

/-- The source spelling of a qualified binary name: `a.Outer$Inner` is `a.Outer.Inner`. -/
def sourceName (qualified : String) : String :=
  Text.exchange '$' '.' qualified

/-- The universal super class. -/
def object : String := "java.lang.Object"

/-- The class of strings. -/
def string : String := "java.lang.String"

/-- The method name under which a static initializer block appears. -/
def staticInitializer : String := "<clinit>"

/-- The field that holds a class's time stamp. -/
def timestampField : String := "__timeStamp"

/-- Reference types that never take generic arguments. -/
def nonGeneric : List String :=
  [object, string, "java.lang.Boolean", "java.lang.Character", "java.lang.Byte",
   "java.lang.Short", "java.lang.Integer", "java.lang.Long", "java.lang.Float",
   "java.lang.Double", "java.lang.Void", "java.lang.Number", "java.math.BigInteger",
   "java.math.BigDecimal"]

/-- What follows the last dot of a qualified name. -/
def withoutPackage (qualified : String) : String :=
  Text.afterLast '.' qualified

/-- The name a declaration is written with: what follows the last dot and then the last `$`. -/
def simpleName (qualified : String) : String :=
  Text.afterLast '$' (withoutPackage qualified)

end JavaStubs.Names
