import JavaStubs.Proofs.Recovery

/-!
# Getting models back

Every type of a model is recovered from its JSON form, from the scalars up to the whole model, unless
the model holds constants with a fraction.
-/
namespace JavaStubs

open Json (Tree Decoded Variant)

variable {kind : Kind}

/-! ## The decoders of types that contain each other -/

namespace Decode

/-- Nothing of a record matters where it is not entered. -/
theorem record_false {σ : Type} (title : String) (initial : σ)
    (slots others : List (Json.Slot σ)) :
    Json.Decode.record false title initial slots = Json.Decode.record false title initial others := by
  funext tree
  cases tree <;> rfl

theorem list_false {α : Type} (read other : Tree → Decoded α) :
    Json.Decode.list false read = Json.Decode.list false other := by
  funext tree
  cases tree <;> rfl

/-- The fields of a type variable. -/
def placeholder : Nat → Tree → Decoded (String × ClassType) :=
  recordOf placeholderTitle ("", default) fun depth => placeholderSlots (classType depth)

/-- A type has contents, which are not looked at where they are not entered. -/
theorem oneOf_false_typeVariants {p p' : Tree → Decoded Primitive} {c c' : Tree → Decoded ClassType}
    {t t' : Tree → Decoded TypeRef} {v v' : Tree → Decoded (String × ClassType)} :
    Json.Decode.oneOf false (typeVariants p c t v) =
      Json.Decode.oneOf false (typeVariants p' c' t' v') := by
  funext tree
  unfold Json.Decode.oneOf
  split <;> try rfl
  -- A name alone is all that is looked at, and no form of a type is written so.
  rename_i name _ _
  simp only [Variant.choose, typeVariants, List.find?_cons, List.find?_nil]
  cases "primitive" == name <;> cases "class" == name <;> cases "array" == name <;>
    cases "placeholder" == name <;> rfl

theorem typeRef_eq : typeRef = oneOf fun depth =>
    typeVariants (primitive depth) (classType depth) (typeRef depth) (placeholder depth) := by
  funext depth
  rcases depth with _ | _ | depth
  · exact oneOf_false_typeVariants
  · exact congrArg (fun read => Json.Decode.oneOf true (typeVariants _ _ _ read))
      (record_false ..)
  · rfl

theorem classType_eq : classType = recordOf "struct ClassType" default fun depth =>
    classTypeSlots (listOf generic depth) := by
  funext depth
  rcases depth with _ | _ | depth
  · exact record_false ..
  · exact congrArg (fun read => Json.Decode.record true _ _ (classTypeSlots read)) (list_false ..)
  · rfl

theorem generic_eq : generic = recordOf "struct GenericsType" {} fun depth =>
    genericSlots (typeRef depth) (listOf typeRef depth) := by
  funext depth
  rcases depth with _ | _ | depth
  · exact record_false ..
  · exact congrArg (fun read => Json.Decode.record true _ _ (genericSlots _ read)) (list_false ..)
  · rfl

theorem classDecl_eq : classDecl = recordOf "struct ClassDecl" { name := "" } fun depth =>
    classSlots depth (listOf classDecl depth) := by
  funext depth
  rcases depth with _ | _ | depth
  · exact record_false ..
  · exact congrArg (fun read => Json.Decode.record true _ _ (classSlots 0 read)) (list_false ..)
  · rfl

end Decode

/-! ## Types -/

theorem Primitive.recovers (type : Primitive) :
    Recovers kind type.toJson Decode.primitive type :=
  recovers_choice (by cases type <;> rfl)

namespace ClassType

theorem recovers_of {name : String} {generics : List Generic} {resolved : Bool}
    (h : ∀ generic ∈ generics, Recovers .generic generic.toJson Decode.generic generic) :
    Recovers .classType { name, generics, resolved : ClassType }.toJson Decode.classType
      { name, generics, resolved } := by
  rw [toJson, Generic.listToJson_eq_map, Decode.classType_eq]
  exact recovers_record rfl <|
    .needed rfl (recovers_text _) <|
    .defaulted rfl recovers_nil rfl (recovers_list h) <|
    .defaulted rfl (recovers_boolean true) rfl (recovers_boolean _) <|
    .nil _

end ClassType

namespace Generic

theorem toJson_eq (name : String) (type : Option TypeRef) (upperBounds : List TypeRef)
    (lowerBound : Option TypeRef) :
    { name, type, upperBounds, lowerBound : Generic }.toJson = .record
      [("name", .text name), ("ty", .ofOption (type.map TypeRef.toJson)),
       ("upper_bounds", .list (upperBounds.map TypeRef.toJson)),
       ("lower_bound", .ofOption (lowerBound.map TypeRef.toJson))] := by
  cases type <;> cases lowerBound <;> rw [toJson, TypeRef.listToJson_eq_map] <;> rfl

theorem recovers_of {name : String} {type : Option TypeRef} {upperBounds : List TypeRef}
    {lowerBound : Option TypeRef}
    (htype : ∀ x ∈ type, Recovers .typeRef x.toJson Decode.typeRef x)
    (hupper : ∀ x ∈ upperBounds, Recovers .typeRef x.toJson Decode.typeRef x)
    (hlower : ∀ x ∈ lowerBound, Recovers .typeRef x.toJson Decode.typeRef x) :
    Recovers .generic { name, type, upperBounds, lowerBound : Generic }.toJson Decode.generic
      { name, type, upperBounds, lowerBound } := by
  have hnull : ∀ x : TypeRef, x.toJson ≠ .null := fun x => by
    cases x <;> simp [TypeRef.toJson, Json.variant]
  rw [toJson_eq, Decode.generic_eq]
  exact recovers_record rfl <|
    .defaulted rfl (recovers_text "") rfl (recovers_text _) <|
    .defaulted rfl recovers_none rfl (recovers_option hnull htype) <|
    .defaulted rfl recovers_nil rfl (recovers_list hupper) <|
    .defaulted rfl recovers_none rfl (recovers_option hnull hlower) <|
    .nil _

end Generic

namespace TypeRef

theorem recovers_primitive (type : Primitive) :
    Recovers .typeRef (toJson (.primitive type)) Decode.typeRef (.primitive type) := by
  rw [toJson, Decode.typeRef_eq]
  exact recovers_variant (fun _ => rfl) rfl (type.recovers.map _)

theorem recovers_named {type : ClassType}
    (h : Recovers .classType type.toJson Decode.classType type) :
    Recovers .typeRef (toJson (.named type)) Decode.typeRef (.named type) := by
  rw [toJson, Decode.typeRef_eq]
  exact recovers_variant (fun _ => rfl) rfl (h.map _)

theorem recovers_array {component : TypeRef}
    (h : Recovers .typeRef component.toJson Decode.typeRef component) :
    Recovers .typeRef (toJson (.array component)) Decode.typeRef (.array component) := by
  rw [toJson, Decode.typeRef_eq]
  exact recovers_variant (fun _ => rfl) rfl (h.map _)

theorem recovers_placeholder {name : String} {erasure : ClassType}
    (h : Recovers .classType erasure.toJson Decode.classType erasure) :
    Recovers .typeRef (toJson (.placeholder name erasure)) Decode.typeRef
      (.placeholder name erasure) := by
  have hfields : Recovers .placeholder
      (.record [("name", .text name), ("erasure", erasure.toJson)]) Decode.placeholder
      (name, erasure) :=
    recovers_record rfl <| .needed rfl (recovers_text name) <| .needed rfl h <| .nil _
  rw [toJson, Decode.typeRef_eq]
  exact recovers_variant (fun _ => rfl) rfl (hfields.map _)

end TypeRef

mutual

/-- A type is recovered: along the type, whose parts are recovered. -/
theorem TypeRef.recovers : (type : TypeRef) → Recovers .typeRef type.toJson Decode.typeRef type
  | .primitive type => TypeRef.recovers_primitive type
  | .named type => TypeRef.recovers_named type.recovers
  | .array component => TypeRef.recovers_array component.recovers
  | .placeholder _ erasure => TypeRef.recovers_placeholder erasure.recovers

theorem ClassType.recovers : (type : ClassType) →
    Recovers .classType type.toJson Decode.classType type
  | { generics, .. } => ClassType.recovers_of (Generic.forall_recovers generics)

theorem Generic.recovers : (generic : Generic) →
    Recovers .generic generic.toJson Decode.generic generic
  | { type, upperBounds, lowerBound, .. } =>
    Generic.recovers_of (TypeRef.recovers_mem_option type) (TypeRef.forall_recovers upperBounds)
      (TypeRef.recovers_mem_option lowerBound)

theorem Generic.forall_recovers : (generics : List Generic) →
    ∀ generic ∈ generics, Recovers .generic generic.toJson Decode.generic generic
  | [] => by simp
  | generic :: rest => by
    rw [List.forall_mem_cons]
    exact ⟨generic.recovers, Generic.forall_recovers rest⟩

theorem TypeRef.forall_recovers : (types : List TypeRef) →
    ∀ type ∈ types, Recovers .typeRef type.toJson Decode.typeRef type
  | [] => by simp
  | type :: rest => by
    rw [List.forall_mem_cons]
    exact ⟨type.recovers, TypeRef.forall_recovers rest⟩

theorem TypeRef.recovers_mem_option : (type : Option TypeRef) →
    ∀ x ∈ type, Recovers .typeRef x.toJson Decode.typeRef x
  | none => by simp
  | some type => by
    have htype := type.recovers
    simpa using htype

end

/-! ## Constants with a fraction -/

/-- Whether the constant is of a floating point type. -/
def Literal.isFraction : Literal → Bool
  | .float _ | .double _ => true
  | _ => false

def Expression.hasFraction : Expression → Bool
  | .constant value => value.isFraction
  | _ => false

def Parameter.hasFraction (parameter : Parameter) : Bool :=
  parameter.default.any Expression.hasFraction

def MethodDecl.hasFraction (method : MethodDecl) : Bool :=
  method.parameters.any Parameter.hasFraction

def DelegationCall.hasFraction (call : DelegationCall) : Bool :=
  call.arguments.any Expression.hasFraction

def ConstructorDecl.hasFraction (constructor : ConstructorDecl) : Bool :=
  constructor.parameters.any Parameter.hasFraction ||
    constructor.firstCall.any DelegationCall.hasFraction

mutual

/-- Whether a constant anywhere in the class or its nested classes is of a floating point type. -/
def ClassDecl.hasFraction : ClassDecl → Bool
  | { methods, constructors, inner, .. } =>
    methods.any MethodDecl.hasFraction || constructors.any ConstructorDecl.hasFraction ||
      ClassDecl.anyFraction inner

def ClassDecl.anyFraction : List ClassDecl → Bool
  | [] => false
  | decl :: rest => decl.hasFraction || ClassDecl.anyFraction rest

end

def SourceUnit.hasFraction (unit : SourceUnit) : Bool := unit.classes.any ClassDecl.hasFraction

def ExternalClass.hasFraction (decl : ExternalClass) : Bool :=
  decl.constructors.any ConstructorDecl.hasFraction

/-- Whether a constant anywhere in the model is of a floating point type. -/
def DeclarationModel.hasFraction (model : DeclarationModel) : Bool :=
  model.units.any SourceUnit.hasFraction || model.external.any ExternalClass.hasFraction

/-! ## Expressions -/

theorem Literal.recovers {value : Literal} (h : value.isFraction = false) :
    Recovers .plain value.toJson Decode.literal value := by
  cases value with
  | null => exact recovers_bare fun _ => rfl
  | bool value => exact recovers_variant (fun _ => rfl) rfl ((recovers_boolean value).map _)
  | int value => exact recovers_variant (fun _ => rfl) rfl ((recovers_int64 value).map _)
  | float bits => cases h
  | double bits => cases h
  | char value => exact recovers_variant (fun _ => rfl) rfl ((recovers_character value).map _)
  | string value => exact recovers_variant (fun _ => rfl) rfl ((recovers_text value).map _)

namespace Expression

theorem recovers {value : Expression} (h : value.hasFraction = false) :
    Recovers .expression value.toJson Decode.expression value := by
  cases value with
  | constant value =>
    exact recovers_variant (fun _ => rfl) rfl ((Literal.recovers h).map _)
  | reference name type =>
    have hfields : Recovers .reference (.record [("name", .text name), ("ty", type.toJson)])
        Decode.reference (name, type) :=
      recovers_record rfl <| .needed rfl (recovers_text name) <| .needed rfl type.recovers <| .nil _
    exact recovers_variant (fun _ => rfl) rfl (hfields.map _)
  | other type =>
    have hfields : Recovers .otherType (.record [("ty", type.toJson)]) Decode.otherType type :=
      recovers_record rfl <| .needed rfl type.recovers <| .nil _
    exact recovers_variant (fun _ => rfl) rfl (hfields.map _)

theorem toJson_ne_null (value : Expression) : value.toJson ≠ .null := by
  cases value <;> simp [toJson, Json.variant]

end Expression

/-! ## Members -/

theorem CallTarget.recovers (target : CallTarget) :
    Recovers kind target.toJson Decode.callTarget target :=
  recovers_choice (by cases target <;> rfl)

theorem FieldDecl.recovers (field : FieldDecl) :
    Recovers .fieldDecl field.toJson Decode.fieldDecl field :=
  recovers_record rfl <|
    .needed rfl (recovers_text _) <|
    .needed rfl (TypeRef.recovers _) <|
    .defaulted rfl (Modifiers.recovers {}) rfl (Modifiers.recovers _) <|
    .defaulted rfl (recovers_boolean false) rfl (recovers_boolean _) <|
    .nil _

theorem PropertyDecl.recovers (property : PropertyDecl) :
    Recovers .propertyDecl property.toJson Decode.propertyDecl property :=
  recovers_record rfl <|
    .needed rfl (recovers_text _) <|
    .needed rfl (TypeRef.recovers _) <|
    .defaulted rfl (Modifiers.recovers (Modifiers.empty.insert .publicAccess)) rfl
      (Modifiers.recovers _) <|
    .nil _

theorem Parameter.recovers {parameter : Parameter} (h : parameter.hasFraction = false) :
    Recovers .parameter parameter.toJson Decode.parameter parameter :=
  recovers_record rfl <|
    .needed rfl (recovers_text _) <|
    .needed rfl (TypeRef.recovers _) <|
    .defaulted rfl recovers_none rfl
      (recovers_option_of_any h Expression.toJson_ne_null fun _ => Expression.recovers) <|
    .nil _

theorem MethodDecl.recovers {method : MethodDecl} (h : method.hasFraction = false) :
    Recovers .methodDecl method.toJson Decode.methodDecl method :=
  recovers_record rfl <|
    .needed rfl (recovers_text _) <|
    .defaulted rfl (Modifiers.recovers {}) rfl (Modifiers.recovers _) <|
    .defaulted rfl (TypeRef.recovers .void) rfl (TypeRef.recovers _) <|
    .defaulted rfl recovers_nil rfl (recovers_list_of_any h fun _ => Parameter.recovers) <|
    .defaulted rfl recovers_nil rfl (recovers_list (Generic.forall_recovers _)) <|
    .defaulted rfl recovers_nil rfl (recovers_list fun _ _ => ClassType.recovers _) <|
    .defaulted rfl (recovers_boolean true) rfl (recovers_boolean _) <|
    .nil _

theorem DelegationCall.recovers {call : DelegationCall} (h : call.hasFraction = false) :
    Recovers .delegationCall call.toJson Decode.delegationCall call :=
  recovers_record rfl <|
    .needed rfl (CallTarget.recovers _) <|
    .defaulted rfl recovers_nil rfl (recovers_list_of_any h fun _ => Expression.recovers) <|
    .nil _

theorem ConstructorDecl.recovers {constructor : ConstructorDecl}
    (h : constructor.hasFraction = false) :
    Recovers .constructorDecl constructor.toJson Decode.constructorDecl constructor := by
  obtain ⟨hparameters, hcall⟩ := Bool.or_eq_false_iff.mp h
  have hnull : ∀ call : DelegationCall, call.toJson ≠ .null := by simp [DelegationCall.toJson]
  exact recovers_record rfl <|
    .defaulted rfl (Modifiers.recovers {}) rfl (Modifiers.recovers _) <|
    .defaulted rfl recovers_nil rfl (recovers_list_of_any hparameters fun _ => Parameter.recovers) <|
    .defaulted rfl recovers_nil rfl (recovers_list fun _ _ => ClassType.recovers _) <|
    .defaulted rfl recovers_none rfl
      (recovers_option_of_any hcall hnull fun _ => DelegationCall.recovers) <|
    .nil _

/-! ## Classes -/

theorem ClassKind.recovers (value : ClassKind) :
    Recovers kind value.toJson Decode.classKind value :=
  recovers_choice (by cases value <;> rfl)

theorem Nesting.recovers (value : Nesting) : Recovers kind value.toJson Decode.nesting value :=
  recovers_choice (by cases value <;> rfl)

namespace ClassDecl

theorem recovers_of {decl : ClassDecl} (h : decl.hasFraction = false)
    (hinner : ∀ other ∈ decl.inner, Recovers .classDecl other.toJson Decode.classDecl other) :
    Recovers .classDecl decl.toJson Decode.classDecl decl := by
  obtain ⟨name, package, modifiers, kind, nesting, superClass, interfaces, generics, fields,
    properties, methods, constructors, inner⟩ := decl
  rw [hasFraction, Bool.or_eq_false_iff, Bool.or_eq_false_iff] at h
  obtain ⟨⟨hmethods, hconstructors⟩, -⟩ := h
  have hnull : ∀ type : ClassType, type.toJson ≠ .null := fun type => by
    cases type
    simp [ClassType.toJson]
  rw [toJson, listToJson_eq_map, Decode.classDecl_eq]
  exact recovers_record rfl <|
    .needed rfl (recovers_text _) <|
    .defaulted rfl recovers_none rfl (recovers_option (by simp) fun _ _ => recovers_text _) <|
    .defaulted rfl (Modifiers.recovers {}) rfl (Modifiers.recovers _) <|
    .defaulted rfl (ClassKind.recovers .ordinary) rfl (ClassKind.recovers _) <|
    .defaulted rfl (Nesting.recovers .topLevel) rfl (Nesting.recovers _) <|
    .defaulted rfl recovers_none rfl (recovers_option hnull fun _ _ => ClassType.recovers _) <|
    .defaulted rfl recovers_nil rfl (recovers_list fun _ _ => ClassType.recovers _) <|
    .defaulted rfl recovers_nil rfl (recovers_list (Generic.forall_recovers _)) <|
    .defaulted rfl recovers_nil rfl (recovers_list fun _ _ => FieldDecl.recovers _) <|
    .defaulted rfl recovers_nil rfl (recovers_list fun _ _ => PropertyDecl.recovers _) <|
    .defaulted rfl recovers_nil rfl
      (recovers_list_of_any hmethods fun _ => MethodDecl.recovers) <|
    .defaulted rfl recovers_nil rfl
      (recovers_list_of_any hconstructors fun _ => ConstructorDecl.recovers) <|
    .defaulted rfl recovers_nil rfl (recovers_list hinner) <|
    .nil _

end ClassDecl

mutual

/-- A class is recovered: along the class, whose nested classes are recovered. -/
theorem ClassDecl.recovers : (decl : ClassDecl) → decl.hasFraction = false →
    Recovers .classDecl decl.toJson Decode.classDecl decl
  | ⟨name, package, modifiers, kind, nesting, superClass, interfaces, generics, fields, properties,
      methods, constructors, inner⟩, h => by
    have hinner : ClassDecl.anyFraction inner = false := by
      rw [ClassDecl.hasFraction, Bool.or_eq_false_iff] at h
      exact h.2
    exact ClassDecl.recovers_of h (ClassDecl.forall_recovers inner hinner)

theorem ClassDecl.forall_recovers : (decls : List ClassDecl) → ClassDecl.anyFraction decls = false →
    ∀ decl ∈ decls, Recovers .classDecl decl.toJson Decode.classDecl decl
  | [], _ => by simp
  | decl :: rest, h => by
    rw [ClassDecl.anyFraction, Bool.or_eq_false_iff] at h
    rw [List.forall_mem_cons]
    exact ⟨decl.recovers h.1, ClassDecl.forall_recovers rest h.2⟩

end

/-! ## Models -/

theorem ImportSet.recovers (set : ImportSet) :
    Recovers .importSet set.toJson Decode.importSet set :=
  recovers_record rfl <|
    .defaulted rfl recovers_nil rfl (recovers_list fun _ _ => recovers_text _) <|
    .defaulted rfl recovers_nil rfl (recovers_list fun _ _ => recovers_text _) <|
    .nil _

theorem SourceUnit.recovers {unit : SourceUnit} (h : unit.hasFraction = false) :
    Recovers .sourceUnit unit.toJson Decode.sourceUnit unit :=
  recovers_record rfl <|
    .defaulted rfl (ImportSet.recovers {}) rfl (ImportSet.recovers _) <|
    .defaulted rfl recovers_nil rfl (recovers_list_of_any h ClassDecl.recovers) <|
    .nil _

theorem ExternalClass.recovers {decl : ExternalClass} (h : decl.hasFraction = false) :
    Recovers .externalClass decl.toJson Decode.externalClass decl :=
  recovers_record rfl <|
    .needed rfl (recovers_text _) <|
    .defaulted rfl recovers_nil rfl (recovers_list_of_any h fun _ => ConstructorDecl.recovers) <|
    .nil _

theorem DeclarationModel.recovers {model : DeclarationModel} (h : model.hasFraction = false) :
    Recovers .model model.toJson Decode.declarationModel model := by
  obtain ⟨hunits, hexternal⟩ := Bool.or_eq_false_iff.mp h
  exact recovers_record rfl <|
    .defaulted rfl recovers_nil rfl (recovers_list_of_any hunits fun _ => SourceUnit.recovers) <|
    .defaulted rfl recovers_nil rfl
      (recovers_list_of_any hexternal fun _ => ExternalClass.recovers) <|
    .nil _

end JavaStubs
