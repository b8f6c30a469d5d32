import JavaStubs.Proofs.Foreign

/-!
# Normal forms of types

What is left of a type in its text when generics are written. A class goes by its spelling in
source, and a type variable looks like a class without arguments. Whether a class is resolved, what
a type variable is erased to, the name of an argument that has a type, a lower bound beside upper
ones and the arguments of the classes that never take any are left out. Everything else is kept, and
the text of a type is the spelling of its normal form.
-/
namespace JavaStubs

mutual

/-- The normal form of a type. The number of its dimensions stands beside it. -/
inductive NormalType where
  | primitive (type : Primitive) (dimensions : Nat)
  /-- A class, a type variable or the wildcard. -/
  | reference (name : String) (arguments : List NormalArgument) (dimensions : Nat)

/-- The normal form of a generic parameter or argument. -/
inductive NormalArgument where
  | exactly (type : NormalType)
  | extending (type first : NormalType) (others : List NormalType)
  | above (type bound : NormalType)

end

namespace NormalType

/-- The type of arrays of the type. -/
def array : NormalType → NormalType
  | .primitive type dimensions => .primitive type (dimensions + 1)
  | .reference name arguments dimensions => .reference name arguments (dimensions + 1)

/-- The brackets of an array. -/
def brackets : Nat → List Char
  | 0 => []
  | count + 1 => '[' :: ']' :: brackets count

end NormalType

mutual

/-- The normal form of a type. -/
def TypeRef.normal : TypeRef → NormalType
  | .primitive type => .primitive type 0
  | .named type => type.normal
  | .array component => component.normal.array
  | .placeholder name _ => .reference name [] 0

/-- The normal form of a class with its arguments. -/
def ClassType.normal : ClassType → NormalType
  | { name, generics, .. } =>
    .reference (Names.sourceName name)
      (if Names.nonGeneric.contains name then [] else Generic.listNormal generics) 0

/-- The normal form of each generic parameter or argument. -/
def Generic.listNormal : List Generic → List NormalArgument
  | [] => []
  | generic :: rest => generic.normal :: Generic.listNormal rest

/-- The normal form of a generic parameter or argument. -/
def Generic.normal : Generic → NormalArgument
  | { name, type, upperBounds, lowerBound } =>
    let type := match type with
      | some type => type.normal
      | none => .reference name [] 0
    match upperBounds, lowerBound with
    | [], none => .exactly type
    | [], some bound => .above type bound.normal
    | first :: others, _ => .extending type first.normal (TypeRef.listNormal others)

/-- The normal form of each type. -/
def TypeRef.listNormal : List TypeRef → List NormalType
  | [] => []
  | type :: rest => type.normal :: TypeRef.listNormal rest

end

/-- The normal form of what stands before the bounds of a generic parameter or argument. -/
def Generic.headNormal (generic : Generic) : NormalType :=
  match generic.type with
  | some type => type.normal
  | none => .reference generic.name [] 0

theorem Generic.normal_eq (generic : Generic) :
    generic.normal =
      match generic.upperBounds, generic.lowerBound with
      | [], none => .exactly generic.headNormal
      | [], some bound => .above generic.headNormal bound.normal
      | first :: others, _ =>
        .extending generic.headNormal first.normal (TypeRef.listNormal others) := by
  cases generic
  unfold Generic.normal
  rfl

mutual

/-- How a normal form is spelled. -/
def NormalType.spelling : NormalType → List Char
  | .primitive type dimensions => type.keyword.toList ++ NormalType.brackets dimensions
  | .reference name arguments dimensions =>
    name.toList ++ (NormalArgument.listSpelling arguments ++ NormalType.brackets dimensions)

/-- How a list of arguments is spelled, with its angle brackets. -/
def NormalArgument.listSpelling : List NormalArgument → List Char
  | [] => []
  | first :: rest => '<' :: (first.spelling ++ NormalArgument.restSpelling rest)

/-- How the arguments after the first one are spelled, with the closing bracket. -/
def NormalArgument.restSpelling : List NormalArgument → List Char
  | [] => ['>']
  | next :: rest => ", ".toList ++ (next.spelling ++ NormalArgument.restSpelling rest)

/-- How an argument is spelled. -/
def NormalArgument.spelling : NormalArgument → List Char
  | .exactly type => type.spelling
  | .extending type first others =>
    type.spelling ++ (" extends ".toList ++ (first.spelling ++ NormalType.restSpelling others))
  | .above type bound => type.spelling ++ (" super ".toList ++ bound.spelling)

/-- How the bounds after the first one are spelled. -/
def NormalType.restSpelling : List NormalType → List Char
  | [] => []
  | next :: rest => " & ".toList ++ (next.spelling ++ NormalType.restSpelling rest)

end

theorem NormalType.brackets_succ (count : Nat) :
    brackets (count + 1) = brackets count ++ "[]".toList := by
  induction count with
  | zero => rfl
  | succ count ih => exact congrArg (fun chars => '[' :: ']' :: chars) ih

theorem NormalType.spelling_array (type : NormalType) :
    type.array.spelling = type.spelling ++ "[]".toList := by
  cases type <;> simp only [array, spelling, brackets_succ, List.append_assoc]

/-- A name alone is its own spelling. -/
theorem NormalType.spelling_plain (name : String) :
    (reference name [] 0).spelling = name.toList := by
  rw [spelling, NormalArgument.listSpelling, brackets, List.append_nil, List.append_nil]

namespace Source.Dialect

mutual

/-- The text of a type is the spelling of its normal form: induction over the type, along the
functions that write one. -/
theorem toList_typeText : (type : TypeRef) →
    (({} : Dialect).typeText type).toList = type.normal.spelling
  | .primitive type => by
    rw [typeText, TypeRef.normal, NormalType.spelling, NormalType.brackets, List.append_nil]
  | .named type => by
    rw [typeText, TypeRef.normal, toList_classText type]
  | .array component => by
    rw [typeText, TypeRef.normal, NormalType.spelling_array, String.toList_append,
      toList_typeText component]
  | .placeholder name erasure => by
    rw [typeText, TypeRef.normal, if_pos rfl, NormalType.spelling_plain]

theorem toList_classText : (type : ClassType) →
    (({} : Dialect).classText type).toList = type.normal.spelling
  | { name, generics, .. } => by
    rw [classText, ClassType.normal]
    split
    · rw [NormalType.spelling_plain]
    · rw [NormalType.spelling, NormalType.brackets, List.append_nil, String.toList_append,
        toList_genericsText generics]

theorem toList_genericsText : (generics : List Generic) →
    (({} : Dialect).genericsText generics).toList =
      NormalArgument.listSpelling (Generic.listNormal generics)
  | [] => by
    rw [genericsText, Generic.listNormal, NormalArgument.listSpelling]
    rfl
  | generic :: rest => by
    have hrest := toList_join_genericTexts (({} : Dialect).genericText generic) rest
    rw [genericsText, Generic.listNormal, NormalArgument.listSpelling, genericTexts,
      ← toList_genericText generic, ← hrest]
    simp

/-- A text before those of some arguments. -/
theorem toList_join_genericTexts (text : String) : (rest : List Generic) →
    (Text.join ", " (text :: ({} : Dialect).genericTexts rest)).toList ++ ['>'] =
      text.toList ++ NormalArgument.restSpelling (Generic.listNormal rest)
  | [] => by
    rw [genericTexts, Text.join_singleton, Generic.listNormal, NormalArgument.restSpelling]
  | next :: rest => by
    rw [genericTexts, Text.join_cons_cons, Generic.listNormal, NormalArgument.restSpelling,
      String.toList_append, String.toList_append, List.append_assoc, List.append_assoc,
      toList_join_genericTexts _ rest, toList_genericText next]

theorem toList_genericText : (generic : Generic) →
    (({} : Dialect).genericText generic).toList = generic.normal.spelling
  | { name, type, upperBounds, lowerBound } => by
    have hhead : (match type with
        | some type => ({} : Dialect).typeText type
        | none => name).toList =
        (Generic.headNormal { name, type, upperBounds, lowerBound }).spelling := by
      cases type with
      | none => exact (NormalType.spelling_plain name).symm
      | some type => exact toList_typeText type
    rw [Generic.normal_eq]
    unfold genericText
    rw [String.toList_append]
    refine (congrArg (· ++ _) hhead).trans ?_
    match upperBounds, lowerBound with
    | [], none => rw [NormalArgument.spelling, String.toList_empty, List.append_nil]
    | [], some bound =>
      rw [NormalArgument.spelling, String.toList_append, toList_typeText bound]
    | first :: others, _ =>
      rw [NormalArgument.spelling, String.toList_append, typeTexts,
        toList_join_typeTexts _ others, toList_typeText first]

/-- A text before those of some bounds. -/
theorem toList_join_typeTexts (text : String) : (rest : List TypeRef) →
    (Text.join " & " (text :: ({} : Dialect).typeTexts rest)).toList =
      text.toList ++ NormalType.restSpelling (TypeRef.listNormal rest)
  | [] => by
    rw [typeTexts, Text.join_singleton, TypeRef.listNormal, NormalType.restSpelling,
      List.append_nil]
  | next :: rest => by
    rw [typeTexts, Text.join_cons_cons, TypeRef.listNormal, NormalType.restSpelling,
      String.toList_append, String.toList_append, List.append_assoc,
      toList_join_typeTexts _ rest, toList_typeText next]

end

end Source.Dialect

end JavaStubs
