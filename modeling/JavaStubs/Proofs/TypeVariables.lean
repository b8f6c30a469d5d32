import JavaStubs.Model.Unit
import JavaStubs.Proofs.ShownTree

/-!
# Type variables and their scopes

Which type variables a type names when generics are written, which ones a declaration declares, and
where a declaration stands in its model. A variable is in scope in a class if the class or one that
it is nested in declares it, and in a method also if the method declares it. The same is said twice:
of declarations, and of the trees that stubs show.
-/
namespace JavaStubs

mutual

/-- The type variables that the text of a type names. -/
def TypeRef.variables : TypeRef → List String
  | .primitive _ => []
  | .named type => type.variables
  | .array component => component.variables
  | .placeholder name _ => [name]

/-- The type variables in the arguments of a class. -/
def ClassType.variables : ClassType → List String
  | { name, generics, .. } =>
    if Names.nonGeneric.contains name then [] else Generic.listVariables generics

/-- The type variables in generic parameters or arguments. -/
def Generic.listVariables : List Generic → List String
  | [] => []
  | generic :: rest => generic.variables ++ Generic.listVariables rest

/-- The type variables in a generic parameter or argument: itself, unless it is a wildcard or has a
type, and those of the bounds that are written. -/
def Generic.variables : Generic → List String
  | { name, type, upperBounds, lowerBound } =>
    (match type with
      | some type => type.variables
      | none => if name = "?" then [] else [name]) ++
    (match upperBounds, lowerBound with
      | [], none => []
      | [], some bound => bound.variables
      | bounds, _ => TypeRef.listVariables bounds)

/-- The type variables in several types. -/
def TypeRef.listVariables : List TypeRef → List String
  | [] => []
  | type :: rest => type.variables ++ TypeRef.listVariables rest

end

@[simp] theorem TypeRef.variables_ofName (name : String) :
    (TypeRef.ofName name).variables = [] := by
  simp [ofName, ClassType.ofName, TypeRef.variables, ClassType.variables, Generic.listVariables]

@[simp] theorem TypeRef.variables_string : TypeRef.string.variables = [] :=
  variables_ofName Names.string

@[simp] theorem TypeRef.variables_void : TypeRef.void.variables = [] := by
  simp [void, TypeRef.variables]

@[simp] theorem ClassType.variables_object : ClassType.object.variables = [] := by
  simp [object, ofName, ClassType.variables, Generic.listVariables]

/-- The type variables that a list of generic parameters declares. -/
def Generic.declared (generics : List Generic) : List String :=
  (generics.filter Generic.isPlaceholder).map Generic.name

/-! ### Declarations -/

/-- The type variables in the type of an expression. -/
def Expression.variables (expression : Expression) : List String :=
  expression.type?.toList.flatMap TypeRef.variables

/-- The type variables in the types of a parameter and of its default value. -/
def Parameter.variables (parameter : Parameter) : List String :=
  parameter.type.variables ++ parameter.default.toList.flatMap Expression.variables

def MethodDecl.variables (method : MethodDecl) : List String :=
  method.returnType.variables ++ method.parameters.flatMap Parameter.variables ++
    Generic.listVariables method.generics ++ method.exceptions.flatMap ClassType.variables

/-- The type variables in a constructor and in the call that it makes. -/
def ConstructorDecl.variables (constructor : ConstructorDecl) : List String :=
  constructor.parameters.flatMap Parameter.variables ++
    constructor.exceptions.flatMap ClassType.variables ++
    constructor.firstCall.toList.flatMap fun call => call.arguments.flatMap Expression.variables

/-- Whether a method in such a scope names only variables in scope or of its own. -/
def MethodDecl.KeepsTo (scope : List String) (method : MethodDecl) : Prop :=
  method.variables ⊆ scope ++ Generic.declared method.generics

instance (scope : List String) (method : MethodDecl) : Decidable (method.KeepsTo scope) :=
  inferInstanceAs (Decidable (method.variables ⊆ scope ++ Generic.declared method.generics))

/-- Whether the types of a class, without its nested classes, name only variables of a scope. -/
structure ClassDecl.KeepsTo (scope : List String) (decl : ClassDecl) : Prop where
  superClass : ∀ type, decl.superClass = some type → type.variables ⊆ scope
  interfaces : decl.interfaces.flatMap ClassType.variables ⊆ scope
  generics : Generic.listVariables decl.generics ⊆ scope
  fields : ∀ field ∈ decl.fields, field.type.variables ⊆ scope
  properties : ∀ property ∈ decl.properties, property.type.variables ⊆ scope
  methods : ∀ method ∈ decl.methods, method.KeepsTo scope
  constructors : ∀ constructor ∈ decl.constructors, constructor.variables ⊆ scope

/-- A declaration and the type variables that the declarations around it declare. -/
structure Placement where
  decl : ClassDecl
  outer : List String

/-- The type variables in scope inside the declaration. -/
def Placement.scope (place : Placement) : List String :=
  place.outer ++ Generic.declared place.decl.generics

mutual

/-- A declaration in its place, and then the ones nested in it. -/
def ClassDecl.placements (outer : List String) (decl : ClassDecl) : List Placement :=
  match decl with
  | { generics, inner, .. } =>
    ⟨decl, outer⟩ :: ClassDecl.listPlacements (outer ++ Generic.declared generics) inner

/-- Declarations in one place, each with the ones nested in it. -/
def ClassDecl.listPlacements (outer : List String) : List ClassDecl → List Placement
  | [] => []
  | decl :: rest => decl.placements outer ++ ClassDecl.listPlacements outer rest

end

mutual

/-- The declarations that the stub of a declaration shows, in their places: anonymous ones are left
out with all that is nested in them. -/
def ClassDecl.shownPlacements (outer : List String) (decl : ClassDecl) : List Placement :=
  match decl with
  | { generics, inner, .. } =>
    if decl.isAnonymous then []
    else ⟨decl, outer⟩ :: ClassDecl.listShownPlacements (outer ++ Generic.declared generics) inner

/-- The declarations that the stubs of several declarations show. -/
def ClassDecl.listShownPlacements (outer : List String) : List ClassDecl → List Placement
  | [] => []
  | decl :: rest => decl.shownPlacements outer ++ ClassDecl.listShownPlacements outer rest

end

/-- The source declarations of a model in their places. -/
def DeclarationModel.placements (model : DeclarationModel) : List Placement :=
  ClassDecl.listPlacements [] model.topLevel

theorem ClassDecl.placements_eq (outer : List String) (decl : ClassDecl) :
    decl.placements outer =
      ⟨decl, outer⟩ :: listPlacements (Placement.scope ⟨decl, outer⟩) decl.inner := by
  obtain ⟨⟩ := decl
  rw [placements, Placement.scope]

theorem ClassDecl.shownPlacements_anonymous {outer : List String} {decl : ClassDecl}
    (h : decl.isAnonymous = true) : decl.shownPlacements outer = [] := by
  obtain ⟨⟩ := decl
  rw [shownPlacements, if_pos h]

theorem ClassDecl.shownPlacements_named {outer : List String} {decl : ClassDecl}
    (h : decl.isAnonymous = false) :
    decl.shownPlacements outer =
      ⟨decl, outer⟩ :: listShownPlacements (Placement.scope ⟨decl, outer⟩) decl.inner := by
  obtain ⟨⟩ := decl
  rw [shownPlacements, if_neg (by simp [h]), Placement.scope]

/-- What is nested in a placed declaration is nested in the same place of the whole tree. -/
theorem ClassDecl.listPlacements_subset {place : Placement} (outer : List String) :
    (decls : List ClassDecl) → place ∈ ClassDecl.listPlacements outer decls →
      place.decl.placements place.outer ⊆ ClassDecl.listPlacements outer decls
  | [], h => by simp [listPlacements] at h
  | { inner, .. } :: rest, h => by
    rw [listPlacements] at h ⊢
    rcases List.mem_append.mp h with h | h
    · refine List.Subset.trans ?_ (List.subset_append_left _ _)
      rw [placements] at h ⊢
      rcases List.mem_cons.mp h with rfl | h
      · rw [placements]
        exact List.Subset.refl _
      · exact List.Subset.trans (listPlacements_subset _ inner h) (List.subset_cons_self _ _)
    · exact List.Subset.trans (listPlacements_subset outer rest h) (List.subset_append_right _ _)

/-! ### Stubs -/

namespace Stubs

/-- The type variables in the casts of a call. -/
def ShownCall.variables (call : ShownCall) : List String :=
  call.types.flatMap TypeRef.variables

def ShownHeader.variables (header : ShownHeader) : List String :=
  Generic.listVariables header.generics ++ header.superClass.toList.flatMap ClassType.variables ++
    header.interfaces.flatMap ClassType.variables

def ShownConstructor.variables (constructor : ShownConstructor) : List String :=
  (constructor.parameters.flatMap fun p => p.type.variables) ++
    constructor.exceptions.flatMap ClassType.variables ++
    constructor.call.toList.flatMap ShownCall.variables

/-- The type variables in the cast of a returned value. -/
def ShownBody.variables : ShownBody → List String
  | .returning type => type.variables
  | _ => []

def ShownMethod.variables (method : ShownMethod) : List String :=
  Generic.listVariables method.generics ++ method.returnType.variables ++
    (method.parameters.flatMap fun p => p.type.variables) ++
    method.exceptions.flatMap ClassType.variables ++ method.body.variables

/-- The type variables in scope inside a class that stands in such a scope. -/
def ShownClass.scope (outer : List String) (shown : ShownClass) : List String :=
  outer ++ Generic.declared shown.header.generics

/-- Every type variable that the stub of a class names is in scope where it stands. The value of a
field names what its type names. -/
inductive ShownClass.InScope : List String → ShownClass → Prop where
  | mk {outer : List String} {shown : ShownClass}
      (header : shown.header.variables ⊆ shown.scope outer)
      (fields : ∀ field ∈ shown.fields, field.type.variables ⊆ shown.scope outer)
      (constructors : ∀ c ∈ shown.constructors, c.variables ⊆ shown.scope outer)
      (methods : ∀ m ∈ shown.methods,
        m.variables ⊆ shown.scope outer ++ Generic.declared m.generics)
      (nested : ∀ inner ∈ shown.nested, InScope (shown.scope outer) inner) : InScope outer shown

end Stubs

end JavaStubs
