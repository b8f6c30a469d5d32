import JavaStubs.Proofs.IndexLookup
import JavaStubs.Proofs.RewrittenText

/-!
# Stubs without generics

What the erased dialect writes says nothing about generics: inputs that differ only in lists of
generic parameters and arguments and in the names of type variables have the same stubs. Where
there are no generics at all, both dialects write the same. Either way the input is rewritten to
one from which the generics are gone: in the first case two inputs become one, in the second the
input stays as it is.
-/
namespace JavaStubs

open Source (Dialect)

/-! ### Declarations without generics -/

/-- Whether a type names no type variable and has no arguments. -/
def TypeRef.IsPlain : TypeRef → Prop
  | .primitive _ => True
  | .named type => type.generics = []
  | .array component => component.IsPlain
  | .placeholder _ _ => False

/-- Whether the type of an expression, if it has one, is plain. -/
def Expression.IsPlain : Expression → Prop
  | .constant _ => True
  | .reference _ type | .other type => type.IsPlain

structure Parameter.IsPlain (parameter : Parameter) : Prop where
  type : parameter.type.IsPlain
  default : ∀ expression, parameter.default = some expression → expression.IsPlain

structure MethodDecl.IsPlain (method : MethodDecl) : Prop where
  returnType : method.returnType.IsPlain
  parameters : ∀ parameter ∈ method.parameters, parameter.IsPlain
  generics : method.generics = []
  exceptions : ∀ type ∈ method.exceptions, type.generics = []

structure ConstructorDecl.IsPlain (constructor : ConstructorDecl) : Prop where
  parameters : ∀ parameter ∈ constructor.parameters, parameter.IsPlain
  exceptions : ∀ type ∈ constructor.exceptions, type.generics = []
  firstCall : ∀ call, constructor.firstCall = some call →
    ∀ argument ∈ call.arguments, argument.IsPlain

/-- Whether the types of a class, without its nested classes, are plain and no generics are
declared. -/
structure ClassDecl.IsPlain (decl : ClassDecl) : Prop where
  superClass : ∀ type, decl.superClass = some type → type.generics = []
  interfaces : ∀ type ∈ decl.interfaces, type.generics = []
  generics : decl.generics = []
  fields : ∀ field ∈ decl.fields, field.type.IsPlain
  properties : ∀ property ∈ decl.properties, property.type.IsPlain
  methods : ∀ method ∈ decl.methods, method.IsPlain
  constructors : ∀ constructor ∈ decl.constructors, constructor.IsPlain

/-! ### Removing generics -/

namespace Rewriting

/-- The rewriting that removes all generic parameters and arguments and names all type variables
alike. Erasures keep their classes. -/
def stripping (variableName : String) : Rewriting where
  classType type := { type with generics := [] }
  typeVariable _ _ := variableName
  generics _ := []
  name_classType _ := rfl
  classType_ofName _ := rfl
  generics_nil := rfl

/-- The rewriting that removes all generic parameters and arguments and gives every type variable
the name of its erasure. -/
def erasing : Rewriting where
  classType type := { type with generics := [] }
  typeVariable _ erasure := Names.sourceName erasure.name
  generics _ := []
  name_classType _ := rfl
  classType_ofName _ := rfl
  generics_nil := rfl

theorem genericsText_erased (generics : List Generic) :
    Dialect.erased.genericsText generics = "" := by
  rw [Dialect.genericsText]
  rfl

theorem genericsText_nil (dialect : Dialect) : dialect.genericsText [] = "" := by
  rw [Dialect.genericsText, List.isEmpty_nil, Bool.or_true, if_pos rfl]

/-- A class without arguments is written like any class in the erased dialect. -/
theorem classText_withoutGenerics (dialect : Dialect) (type : ClassType) :
    dialect.classText { type with generics := [] } = Dialect.erased.classText type := by
  obtain ⟨⟩ := type
  rw [Dialect.classText, Dialect.classText, genericsText_nil, genericsText_erased]

theorem stripping_spells (variableName : String) :
    (stripping variableName).Spells .erased .erased where
  classText := classText_withoutGenerics .erased
  genericsText generics := by rw [genericsText_erased, genericsText_erased]
  placeholder name erasure := by
    simp only [Dialect.typeText]
    exact classText_withoutGenerics .erased erasure

theorem erasing_spells : erasing.Spells .erased {} where
  classText := classText_withoutGenerics {}
  genericsText generics := by
    rw [genericsText_erased]
    exact genericsText_nil {}
  placeholder name erasure := by
    obtain ⟨⟩ := erasure
    simp only [Dialect.typeText]
    change _ = Dialect.erased.classText _
    rw [Dialect.classText, genericsText_erased, String.append_empty, ite_self]
    rfl

/-! ### What has no generics stays as it is -/

theorem map_eq_self {α : Type} {f : α → α} {items : List α} (h : ∀ item ∈ items, f item = item) :
    items.map f = items :=
  (List.map_congr_left h).trans (List.map_id items)

theorem option_map_eq_self {α : Type} {f : α → α} {item? : Option α}
    (h : ∀ item, item? = some item → f item = item) : item?.map f = item? := by
  cases item? with
  | none => rfl
  | some item => exact congrArg some (h item rfl)

theorem erasing_classType {type : ClassType} (h : type.generics = []) :
    erasing.classType type = type := by
  obtain ⟨⟩ := type
  cases h
  rfl

theorem erasing_type : {type : TypeRef} → type.IsPlain → erasing.type type = type
  | .primitive _, _ => rfl
  | .named _, h => congrArg TypeRef.named (erasing_classType h)
  | .array _, h => congrArg TypeRef.array (erasing_type h)

theorem erasing_expression {expression : Expression} (h : expression.IsPlain) :
    erasing.expression expression = expression := by
  cases expression with
  | constant value => rfl
  | reference name type => exact congrArg _ (erasing_type h)
  | other type => exact congrArg _ (erasing_type h)

theorem erasing_parameter {parameter : Parameter} (h : parameter.IsPlain) :
    erasing.parameter parameter = parameter := by
  have hdefault :=
    option_map_eq_self fun expression he => erasing_expression (h.default expression he)
  rw [Rewriting.parameter, erasing_type h.type, hdefault]

theorem erasing_parameters {parameters : List Parameter}
    (h : ∀ parameter ∈ parameters, parameter.IsPlain) :
    parameters.map erasing.parameter = parameters :=
  map_eq_self fun parameter hp => erasing_parameter (h parameter hp)

theorem erasing_classTypes {types : List ClassType} (h : ∀ type ∈ types, type.generics = []) :
    types.map erasing.classType = types :=
  map_eq_self fun type ht => erasing_classType (h type ht)

theorem erasing_method {method : MethodDecl} (h : method.IsPlain) :
    erasing.method method = method := by
  have hgenerics : erasing.generics method.generics = method.generics := h.generics.symm
  rw [Rewriting.method, erasing_type h.returnType, erasing_parameters h.parameters, hgenerics,
    erasing_classTypes h.exceptions]

theorem erasing_methods {methods : List MethodDecl} (h : ∀ method ∈ methods, method.IsPlain) :
    methods.map erasing.method = methods :=
  map_eq_self fun method hm => erasing_method (h method hm)

theorem erasing_constructor {constructor : ConstructorDecl} (h : constructor.IsPlain) :
    erasing.constructor constructor = constructor := by
  have hcall : constructor.firstCall.map erasing.call = constructor.firstCall := by
    refine option_map_eq_self fun call hc => ?_
    rw [Rewriting.call,
      map_eq_self fun argument ha => erasing_expression (h.firstCall call hc argument ha)]
  rw [Rewriting.constructor, erasing_parameters h.parameters, erasing_classTypes h.exceptions,
    hcall]

theorem erasing_constructors {constructors : List ConstructorDecl}
    (h : ∀ constructor ∈ constructors, constructor.IsPlain) :
    constructors.map erasing.constructor = constructors :=
  map_eq_self fun constructor hc => erasing_constructor (h constructor hc)

theorem erasing_known {known : KnownClass}
    (h : ∀ constructor ∈ known.constructors, constructor.IsPlain) :
    erasing.known known = known := by
  rw [Rewriting.known, erasing_constructors h]

theorem erasing_own {decl : ClassDecl} (h : decl.IsPlain) : erasing.own decl = decl := by
  have hsuper := option_map_eq_self fun type ht => erasing_classType (h.superClass type ht)
  have hgenerics : erasing.generics decl.generics = decl.generics := h.generics.symm
  have hfields : decl.fields.map erasing.field = decl.fields := by
    refine map_eq_self fun field hf => ?_
    rw [Rewriting.field, erasing_type (h.fields field hf)]
  have hproperties : decl.properties.map erasing.property = decl.properties := by
    refine map_eq_self fun property hp => ?_
    rw [Rewriting.property, erasing_type (h.properties property hp)]
  rw [Rewriting.own, hsuper, hgenerics, hfields, hproperties, erasing_classTypes h.interfaces,
    erasing_methods h.methods, erasing_constructors h.constructors]
  obtain ⟨⟩ := decl
  rfl

mutual

theorem erasing_classDecl : (decl : ClassDecl) → (∀ d ∈ decl.declarations, d.IsPlain) →
    erasing.classDecl decl = decl
  | { inner, .. }, h => by
    rw [ClassDecl.declarations, List.forall_mem_cons] at h
    rw [classDecl_eq, erasing_own h.1, erasing_classDecls inner h.2]

theorem erasing_classDecls : (decls : List ClassDecl) →
    (∀ d ∈ ClassDecl.listDeclarations decls, d.IsPlain) → erasing.classDecls decls = decls
  | [], _ => by rw [classDecls]
  | decl :: rest, h => by
    rw [ClassDecl.listDeclarations, List.forall_mem_append] at h
    rw [classDecls, erasing_classDecl decl h.1, erasing_classDecls rest h.2]

end

end Rewriting

/-! ### Printing -/

namespace Stubs

/-- Printing in the erased dialect with other generics. -/
theorem printInto_of_stripped {variableName : String} {decl decl' : ClassDecl}
    {protocol protocol' : List MethodDecl} {index index' : ClassIndex}
    (hdecl : (Rewriting.stripping variableName).classDecl decl =
      (Rewriting.stripping variableName).classDecl decl')
    (hprotocol : protocol.map (Rewriting.stripping variableName).method =
      protocol'.map (Rewriting.stripping variableName).method)
    (hindex : ∀ name, (index.get? name).map (Rewriting.stripping variableName).known =
      (index'.get? name).map (Rewriting.stripping variableName).known)
    (rules : List CallRule) (out : Layout) :
    ((Printer.standard .erased index protocol rules).printInto decl out).1 =
      ((Printer.standard .erased index' protocol' rules).printInto decl' out).1 := by
  let r := Rewriting.stripping variableName
  let q := Printer.standard .erased (r.index index) (protocol.map r.method) rules
  have hspells : r.Spells .erased .erased := Rewriting.stripping_spells variableName
  have hfirst : (Printer.standard .erased index protocol rules).Rewritten r protocol rules q :=
    ⟨hspells, r.get?_index index, rfl, rfl, rfl, rfl⟩
  have hsecond : (Printer.standard .erased index' protocol' rules).Rewritten r protocol' rules q :=
    ⟨hspells, fun name => (r.get?_index index name).trans (hindex name), rfl,
      congrArg Normalization.Transform.standard hprotocol, rfl, rfl⟩
  rw [← Printer.printInto_classDecl hfirst, ← Printer.printInto_classDecl hsecond, hdecl]

/-- Without generics, printing in both dialects. -/
theorem printInto_of_plain {decl : ClassDecl} {protocol : List MethodDecl} {index : ClassIndex}
    (hdecl : ∀ d ∈ decl.declarations, d.IsPlain) (hprotocol : ∀ method ∈ protocol, method.IsPlain)
    (hindex : ∀ name known, index.get? name = some known →
      ∀ constructor ∈ known.constructors, constructor.IsPlain)
    (rules : List CallRule) (out : Layout) :
    ((Printer.standard {} index protocol rules).printInto decl out).1 =
      ((Printer.standard .erased index protocol rules).printInto decl out).1 := by
  have hknown : ∀ name, index.get? name = (index.get? name).map Rewriting.erasing.known :=
    fun name => (Rewriting.option_map_eq_self fun known hk =>
      Rewriting.erasing_known (hindex name known hk)).symm
  have hstandard : Normalization.Transform.standard protocol =
      .standard (protocol.map Rewriting.erasing.method) := by
    rw [Rewriting.erasing_methods hprotocol]
  have hrewritten : (Printer.standard .erased index protocol rules).Rewritten .erasing protocol
      rules (Printer.standard {} index protocol rules) :=
    ⟨Rewriting.erasing_spells, hknown, rfl, hstandard, rfl, rfl⟩
  have hprinted := Printer.printInto_classDecl hrewritten decl out
  rwa [Rewriting.erasing_classDecl decl hdecl] at hprinted

/-- The erased dialect shows nothing of generics. Inputs, each of them a class, an object protocol
and an index, that become equal when lists of generics are removed and type variables are named
alike are printed to the same text; and an input without any generics is printed to the same text
in both dialects. -/
theorem erased_printInto (rules : List CallRule) (out : Layout) :
    (∀ (variableName : String) (decl decl' : ClassDecl) (protocol protocol' : List MethodDecl)
        (index index' : ClassIndex),
      (Rewriting.stripping variableName).classDecl decl =
        (Rewriting.stripping variableName).classDecl decl' →
      protocol.map (Rewriting.stripping variableName).method =
        protocol'.map (Rewriting.stripping variableName).method →
      (∀ name, (index.get? name).map (Rewriting.stripping variableName).known =
        (index'.get? name).map (Rewriting.stripping variableName).known) →
      ((Printer.standard .erased index protocol rules).printInto decl out).1 =
        ((Printer.standard .erased index' protocol' rules).printInto decl' out).1) ∧
    ∀ (decl : ClassDecl) (protocol : List MethodDecl) (index : ClassIndex),
      (∀ d ∈ decl.declarations, d.IsPlain) →
      (∀ method ∈ protocol, method.IsPlain) →
      (∀ name known, index.get? name = some known →
        ∀ constructor ∈ known.constructors, constructor.IsPlain) →
      ((Printer.standard .erased index protocol rules).printInto decl out).1 =
        ((Printer.standard {} index protocol rules).printInto decl out).1 := by
  constructor
  · intro variableName decl decl' protocol protocol' index index' hdecl hprotocol hindex
    exact printInto_of_stripped hdecl hprotocol hindex rules out
  · intro decl protocol index hdecl hprotocol hindex
    exact (printInto_of_plain hdecl hprotocol hindex rules out).symm

/-- A class with a type variable, and a method with another one. -/
def typedBox : ClassDecl :=
  { name := "geo.Box"
    superClass := some ((ClassType.ofName "geo.Holder").addGeneric (.placeholder "T"))
    generics := [.placeholder "T"]
    fields := [.ofName "content" (.typeVariable "T")]
    methods := [((MethodDecl.ofName "convert").returning (.typeVariable "R")).addGeneric
      (.placeholder "R")]
    constructors := [{ firstCall := some (.superCall [.other (.typeVariable "T")]) }] }

/-- The class with its type variables renamed, and without arguments for its super class. -/
def renamedBox : ClassDecl :=
  { name := "geo.Box"
    superClass := some (.ofName "geo.Holder")
    generics := [.placeholder "E", .placeholder "F"]
    fields := [.ofName "content" (.typeVariable "E")]
    methods := [(MethodDecl.ofName "convert").returning (.typeVariable "E")]
    constructors := [{ firstCall := some (.superCall [.other (.typeVariable "E")]) }] }

/-- What is known of the super class: a constructor with a parameter of that type. -/
def holderTaking (type : TypeRef) : ClassIndex :=
  ClassIndex.empty.put "geo.Holder"
    ⟨.source, [{ modifiers := .ofList [.publicAccess], parameters := [.ofName "content" type] }]⟩

/-- A class that has nothing to do with generics, with a nested one. -/
def pallet : ClassDecl :=
  { name := "geo.Pallet"
    superClass := some (.ofName "geo.Holder")
    fields := [.ofName "sizes" (.array .int)]
    constructors := [{ firstCall := some (.superCall []) }]
    inner := [{ name := "geo.Pallet$Lid", nesting := .member }] }

theorem holderTaking_plain {type : TypeRef} (h : type.IsPlain) (name : String)
    (known : KnownClass) (hknown : (holderTaking type).get? name = some known) :
    ∀ constructor ∈ known.constructors, constructor.IsPlain := by
  rw [holderTaking, ClassIndex.get?_put, ClassIndex.get?_empty] at hknown
  split at hknown
  · obtain rfl := Option.some.inj hknown
    rw [List.forall_mem_singleton]
    refine ⟨?_, by simp, by simp⟩
    rw [List.forall_mem_singleton]
    exact ⟨h, by simp [Parameter.ofName]⟩
  · simp at hknown

theorem pallet_plain : ∀ d ∈ pallet.declarations, d.IsPlain := by
  have hdeclarations : pallet.declarations = pallet :: pallet.inner := rfl
  rw [hdeclarations]
  simp only [pallet, List.forall_mem_cons, List.not_mem_nil, false_implies, implies_true, and_true]
  refine ⟨⟨?_, nofun, rfl, ?_, nofun, nofun, ?_⟩, ⟨nofun, nofun, rfl, nofun, nofun, nofun, nofun⟩⟩
  · rintro type ⟨⟩
    rfl
  · simp [FieldDecl.ofName, TypeRef.int, TypeRef.IsPlain]
  · simp only [List.forall_mem_singleton]
    refine ⟨nofun, nofun, ?_⟩
    rintro call ⟨⟩
    exact nofun

theorem boxes_and_pallet_printed :
    ((Printer.standard .erased (holderTaking (.typeVariable "T")) [] CallRule.usual).printInto
        typedBox .empty).1 =
      ((Printer.standard .erased (holderTaking (.typeVariable "E")) [] CallRule.usual).printInto
        renamedBox .empty).1 ∧
    ((Printer.standard .erased (holderTaking .int) [.ofName "paint"] CallRule.usual).printInto
        pallet .empty).1 =
      ((Printer.standard {} (holderTaking .int) [.ofName "paint"] CallRule.usual).printInto
        pallet .empty).1 := by
  have h := erased_printInto CallRule.usual .empty
  constructor
  · refine h.1 "T" typedBox renamedBox [] [] _ _ rfl rfl fun name => ?_
    rw [holderTaking, holderTaking, ClassIndex.get?_put, ClassIndex.get?_put]
    split <;> rfl
  · refine h.2 pallet [.ofName "paint"] _ pallet_plain ?_ (holderTaking_plain trivial)
    simp only [List.forall_mem_singleton]
    exact ⟨trivial, nofun, rfl, nofun⟩

end Stubs

end JavaStubs
