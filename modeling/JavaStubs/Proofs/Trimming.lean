import JavaStubs.Model.Encode
import JavaStubs.Proofs.JsonText

/-!
# Leaving out defaults

Every object of a model's JSON form is of some kind, and its kind says of what kinds its members are
and which of them have a default. Trimming such a value leaves out members that hold their default,
anywhere in it.
-/
namespace JavaStubs

/-- What an object, the objects in a list, or a variant's object stand for. -/
inductive Kind where
  /-- Nothing that has defaults. -/
  | plain
  | model
  | sourceUnit
  | importSet
  | externalClass
  | classDecl
  | fieldDecl
  | propertyDecl
  | parameter
  | methodDecl
  | delegationCall
  | constructorDecl
  | classType
  | generic
  /-- A type, under the name of its form. -/
  | typeRef
  /-- The fields of a type variable. -/
  | placeholder
  /-- An expression, under the name of its form. -/
  | expression
  /-- The fields of a variable. -/
  | reference
  /-- The field of an expression that is known by its type. -/
  | otherType
  deriving DecidableEq, Repr

namespace Kind

/-- A member of an object. -/
structure Part where
  name : String
  kind : Kind
  /-- What is meant where the member is left out. -/
  default? : Option Json

/-- A member that cannot be left out. -/
def needed (name : String) (kind : Kind := .plain) : Part := ⟨name, kind, none⟩

/-- A list that is empty where it is left out. -/
def many (name : String) (kind : Kind := .plain) : Part := ⟨name, kind, some (.list [])⟩

/-- A value that is null where it is left out. -/
def optional (name : String) (kind : Kind := .plain) : Part := ⟨name, kind, some .null⟩

/-- A member with another default. -/
def defaulted (name : String) (value : Json) (kind : Kind := .plain) : Part :=
  ⟨name, kind, some value⟩

/-- The members of the objects of a kind. -/
def parts : Kind → List Part
  | plain => []
  | model => [many "units" sourceUnit, many "external" externalClass]
  | sourceUnit =>
    [defaulted "imports" (.record [("star_imports", .list []), ("imports", .list [])]) importSet,
     many "classes" classDecl]
  | importSet => [many "star_imports", many "imports"]
  | externalClass => [needed "name", many "constructors" constructorDecl]
  | classDecl =>
    [needed "name", optional "package", defaulted "modifiers" (.text ""),
     defaulted "kind" (.text "class"), defaulted "nesting" (.text "top_level"),
     optional "super_class" classType, many "interfaces" classType, many "generics" generic,
     many "fields" fieldDecl, many "properties" propertyDecl, many "methods" methodDecl,
     many "constructors" constructorDecl, many "inner" classDecl]
  | fieldDecl =>
    [needed "name", needed "ty" typeRef, defaulted "modifiers" (.text ""),
     defaulted "enum_constant" (.boolean false)]
  | propertyDecl =>
    [needed "name", needed "ty" typeRef, defaulted "modifiers" (.text "PUBLIC")]
  | parameter => [needed "name", needed "ty" typeRef, optional "default" expression]
  | methodDecl =>
    [needed "name", defaulted "modifiers" (.text ""),
     defaulted "return_type" (.record [("primitive", .text "void")]) typeRef,
     many "parameters" parameter, many "generics" generic, many "exceptions" classType,
     defaulted "has_body" (.boolean true)]
  | delegationCall => [needed "kind", many "arguments" expression]
  | constructorDecl =>
    [defaulted "modifiers" (.text ""), many "parameters" parameter, many "exceptions" classType,
     optional "first_call" delegationCall]
  | classType => [needed "name", many "generics" generic, defaulted "resolved" (.boolean true)]
  | generic =>
    [defaulted "name" (.text ""), optional "ty" typeRef, many "upper_bounds" typeRef,
     optional "lower_bound" typeRef]
  | typeRef => [needed "class" classType, needed "array" typeRef, needed "placeholder" placeholder]
  | placeholder => [needed "name", needed "erasure" classType]
  | expression => [needed "constant", needed "variable" reference, needed "other" otherType]
  | reference => [needed "name", needed "ty" typeRef]
  | otherType => [needed "ty" typeRef]

/-- The member of that name. -/
def part? (kind : Kind) (name : String) : Option Part := kind.parts.find? (·.name == name)

/-- Of what kind the member of that name is. -/
def inside (kind : Kind) (name : String) : Kind := ((kind.part? name).map (·.kind)).getD plain

/-- The default of the member of that name, if it has one. -/
def default? (kind : Kind) (name : String) : Option Json := (kind.part? name).bind (·.default?)

end Kind

namespace Json

mutual

/-- Some members that hold their default are left out, anywhere in a value. -/
inductive Trims : Kind → Json → Json → Prop where
  | same (kind : Kind) (json : Json) : Trims kind json json
  | list {kind : Kind} {items left : List Json} (h : AllTrim kind items left) :
      Trims kind (.list items) (.list left)
  | record {kind : Kind} {members left : List (String × Json)} (h : MembersTrim kind members left) :
      Trims kind (.record members) (.record left)

inductive AllTrim : Kind → List Json → List Json → Prop where
  | nil (kind : Kind) : AllTrim kind [] []
  | cons {kind : Kind} {item trimmed : Json} {items left : List Json}
      (h : Trims kind item trimmed) (hrest : AllTrim kind items left) :
      AllTrim kind (item :: items) (trimmed :: left)

inductive MembersTrim : Kind → List (String × Json) → List (String × Json) → Prop where
  | nil (kind : Kind) : MembersTrim kind [] []
  | keep {kind : Kind} {name : String} {value trimmed : Json} {members left : List (String × Json)}
      (h : Trims (kind.inside name) value trimmed) (hrest : MembersTrim kind members left) :
      MembersTrim kind ((name, value) :: members) ((name, trimmed) :: left)
  | drop {kind : Kind} {name : String} {value : Json} {members left : List (String × Json)}
      (h : kind.default? name = some value) (hrest : MembersTrim kind members left) :
      MembersTrim kind ((name, value) :: members) left

end

mutual

/-- How deep lists and objects are nested. -/
def nesting : Json → Nat
  | .list items => nestingAll items + 1
  | .record members => nestingMembers members + 1
  | _ => 0

def nestingAll : List Json → Nat
  | [] => 0
  | item :: rest => max item.nesting (nestingAll rest)

def nestingMembers : List (String × Json) → Nat
  | [] => 0
  | (_, value) :: rest => max value.nesting (nestingMembers rest)

end

variable {kind : Kind} {json trimmed : Json}

theorem AllTrim.refl (kind : Kind) (items : List Json) : AllTrim kind items items := by
  induction items with
  | nil => exact .nil kind
  | cons item rest ih => exact .cons (.same kind item) ih

theorem MembersTrim.refl (kind : Kind) (members : List (String × Json)) :
    MembersTrim kind members members := by
  induction members with
  | nil => exact .nil kind
  | cons member rest ih => exact .keep (.same _ member.2) ih

/-- A trimmed list has an item for each item. -/
theorem Trims.of_list {items : List Json} (h : Trims kind (.list items) trimmed) :
    ∃ left, trimmed = .list left ∧ AllTrim kind items left := by
  cases h with
  | same => exact ⟨items, rfl, .refl kind items⟩
  | list h => exact ⟨_, rfl, h⟩

/-- A trimmed object has some of the members. -/
theorem Trims.of_record {members : List (String × Json)} (h : Trims kind (.record members) trimmed) :
    ∃ left, trimmed = .record left ∧ MembersTrim kind members left := by
  cases h with
  | same => exact ⟨members, rfl, .refl kind members⟩
  | record h => exact ⟨_, rfl, h⟩

/-- Nothing is left out of the contents of a variant. -/
theorem Trims.of_variant {name : String} (hneeded : kind.default? name = none)
    (h : Trims kind (.variant name json) trimmed) :
    ∃ contents, trimmed = .variant name contents ∧ Trims (kind.inside name) json contents := by
  obtain ⟨left, rfl, hleft⟩ := h.of_record
  cases hleft with
  | keep hvalue hrest =>
    cases hrest
    exact ⟨_, rfl, hvalue⟩
  | drop hdefault _ => exact absurd (hneeded.symm.trans hdefault) (by simp)

mutual

theorem Trims.isExact : ∀ {kind : Kind} {json trimmed : Json}, Trims kind json trimmed →
    json.IsExact → trimmed.IsExact
  | _, _, _, .same _ _, hexact => hexact
  | _, _, _, .list h, hexact => h.areExact hexact
  | _, _, _, .record h, hexact => h.membersExact hexact

theorem AllTrim.areExact : ∀ {kind : Kind} {items left : List Json}, AllTrim kind items left →
    AreExact items → AreExact left
  | _, _, _, .nil _, _ => trivial
  | _, _, _, .cons h hrest, hexact => ⟨h.isExact hexact.1, hrest.areExact hexact.2⟩

theorem MembersTrim.membersExact : ∀ {kind : Kind} {members left : List (String × Json)},
    MembersTrim kind members left → MembersExact members → MembersExact left
  | _, _, _, .nil _, _ => trivial
  | _, _, _, .keep h hrest, hexact => ⟨h.isExact hexact.1, hrest.membersExact hexact.2⟩
  | _, _, _, .drop _ hrest, hexact => hrest.membersExact hexact.2

end

mutual

/-- Leaving members out makes no value deeper. -/
theorem Trims.nesting_le : ∀ {kind : Kind} {json trimmed : Json}, Trims kind json trimmed →
    trimmed.nesting ≤ json.nesting
  | _, _, _, .same _ _ => Nat.le_refl _
  | _, _, _, .list h => Nat.succ_le_succ h.nestingAll_le
  | _, _, _, .record h => Nat.succ_le_succ h.nestingMembers_le

theorem AllTrim.nestingAll_le : ∀ {kind : Kind} {items left : List Json}, AllTrim kind items left →
    nestingAll left ≤ nestingAll items
  | _, _, _, .nil _ => Nat.le_refl _
  | _, _, _, .cons h hrest => by
    have hitem := h.nesting_le
    have hitems := hrest.nestingAll_le
    simp only [nestingAll]
    omega

theorem MembersTrim.nestingMembers_le : ∀ {kind : Kind} {members left : List (String × Json)},
    MembersTrim kind members left → nestingMembers left ≤ nestingMembers members
  | _, _, _, .nil _ => Nat.le_refl _
  | _, _, _, .keep h hrest => by
    have hvalue := h.nesting_le
    have hmembers := hrest.nestingMembers_le
    simp only [nestingMembers]
    omega
  | _, _, _, .drop _ hrest => Nat.le_trans hrest.nestingMembers_le (Nat.le_max_right ..)

end

end Json

end JavaStubs
