import JavaStubs.Proofs.DistinctMembers
import JavaStubs.Proofs.IndexLookup
import JavaStubs.Proofs.MemberText
import JavaStubs.Proofs.TypeVariables

/-!
# Methods without a body

A method that is printed as a bare signature is accepted in an interface, and in a class whose
header says that it is abstract. The header of an interface always says what it is, and that of an
ordinary class keeps its modifier. The header of an enum loses it, while methods of an enum are
printed without a body like those of a class: so a stub has a bare signature in the wrong place
exactly if one of its enums shows an abstract method. None of the methods that a normalization makes
by itself is abstract, but an overload is if the method is that it is made from.
-/
namespace JavaStubs

open Normalization

theorem Modifiers.mem_keywords_abstract {s : Modifiers} :
    "abstract" ∈ s.keywords ↔ s.isAbstract = true := by
  have hkeyword : ∀ m : Modifier, m.keyword? = some "abstract" ↔ m = .abstract := by
    intro m
    cases m <;> decide
  simp [keywords, hkeyword, Modifier.mem_all, isAbstract]

namespace Normalization

theorem isAbstract_accessor {property : PropertyDecl} {method : MethodDecl}
    (h : method ∈ accessorsOf property) : method.isAbstract = false := by
  have hmodifiers : (accessorModifiers property).isAbstract = false := by
    unfold accessorModifiers
    split <;> decide
  have haccessor : method = getter property ∨ method = setter property := by
    unfold accessorsOf at h
    split at h
    · exact .inl (List.mem_singleton.mp h)
    · simpa using h
  rcases haccessor with rfl | rfl
  · exact (Bool.or_false _).trans hmodifiers
  · exact (Bool.or_false _).trans hmodifiers

theorem isAbstract_helper {name : String} {method : MethodDecl} (h : method ∈ helpersOf name) :
    method.isAbstract = false := by
  have hstatic : (Modifiers.ofList [.publicAccess, .static, .synthetic]).isAbstract = false := by
    decide
  have hinstance : (Modifiers.ofList [.publicAccess, .synthetic]).isAbstract = false := by decide
  simp only [helpersOf, List.mem_cons, List.not_mem_nil, or_false] at h
  rcases h with rfl | rfl | rfl | rfl
  · simp [MethodDecl.isAbstract, hstatic]
  · simp [MethodDecl.isAbstract, hstatic]
  · simp [MethodDecl.isAbstract, hinstance]
  · simp [MethodDecl.isAbstract, hinstance]

/-- What is made for a class, overloads apart, has a body. -/
theorem isAbstract_made {protocol : List MethodDecl}
    (hprotocol : ∀ m ∈ protocol, m.isAbstract = false) {decl : ClassDecl} {method : MethodDecl}
    (h : method ∈ accessors decl ++ enumHelpers decl ++ protocolMethods protocol decl) :
    method.isAbstract = false := by
  rcases List.mem_append.mp h with h | hobject
  · rcases List.mem_append.mp h with haccessor | hhelper
    · obtain ⟨property, -, hmem⟩ := List.mem_flatMap.mp (List.mem_filter.mp haccessor).1
      exact isAbstract_accessor hmem
    · exact isAbstract_helper ((enumHelpers_sublist decl).subset hhelper)
  · exact hprotocol method ((protocolMethods_sublist protocol decl).subset hobject)

/-- An overload has a body exactly if the method has. -/
theorem isAbstract_overload {source method : MethodDecl} (h : method ∈ methodOverloads source) :
    method.isAbstract = source.isAbstract := by
  obtain ⟨parameters, -, rfl⟩ := List.mem_map.mp h
  rfl

end Normalization

namespace Stubs

open Source (Dialect)

/-! ### Where a bare signature may stand -/

/-- Whether the line of a method is its signature and a semicolon. -/
def ShownMethod.IsBare (dialect : Dialect) (method : ShownMethod) : Prop :=
  ∃ signature, method.fragment dialect = .line (signature ++ ";")

/-- Whether Java accepts bare signatures below a header: that of an interface, or one with the
keyword `abstract`. -/
def ShownHeader.AllowsBare (header : ShownHeader) : Prop :=
  header.kind = .interface ∨ "abstract" ∈ header.modifiers.keywords

/-- Every bare signature in a class and in its nested classes stands where Java accepts one. -/
inductive ShownClass.BareInAbstract (dialect : Dialect) : ShownClass → Prop where
  | mk {shown : ShownClass}
      (methods : ∀ m ∈ shown.methods, m.IsBare dialect → shown.header.AllowsBare)
      (nested : ∀ inner ∈ shown.nested, BareInAbstract dialect inner) : BareInAbstract dialect shown

theorem ShownMethod.isBare_iff {dialect : Dialect} {method : ShownMethod} :
    method.IsBare dialect ↔ method.body = .absent := by
  constructor
  · rintro ⟨signature, hline⟩
    have htext := Fragment.line.inj hline
    rw [Source.MethodLine.text_eq] at htext
    have hlast := congrArg (fun text => text.toList.getLast?) htext
    cases hbody : method.body with
    | absent => rfl
    | empty => simp [hbody, ShownBody.text, Source.MethodBody.text] at hlast
    | returning type =>
      simp [hbody, ShownBody.text, Source.MethodBody.text, List.getLast?_cons] at hlast
  · intro hbody
    rw [IsBare, ShownMethod.fragment, hbody]
    exact ⟨_, rfl⟩

namespace Printer

variable {p : Printer} {protocol : List MethodDecl} {rules : List CallRule} {decl : ClassDecl}

theorem isBare_shownMethod {dialect : Dialect} {method : MethodDecl} :
    (shownMethod decl method).IsBare dialect ↔ isBodiless decl method = true := by
  rw [ShownMethod.isBare_iff]
  change shownBody decl method = .absent ↔ _
  unfold shownBody
  split
  · next h => simp [h]
  · next h => split <;> simp [h]

/-- An enum never allows a bare signature: it has the modifier erased. -/
theorem allowsBare_shownHeader :
    (shownHeader decl).AllowsBare ↔
      decl.kind = .interface ∨ decl.kind = .ordinary ∧ decl.modifiers.isAbstract = true := by
  rw [ShownHeader.AllowsBare, Modifiers.mem_keywords_abstract, shownHeader]
  by_cases hkind : decl.kind = .ordinary
  · simp [hkind]
  · simp [hkind, Modifiers.isAbstract]

/-- The abstract methods that the stub of a class shows: those it declares, and their overloads. -/
def abstractMethods (decl : ClassDecl) : List MethodDecl :=
  (visible decl (decl.methods.flatMap methodOverloads ++ decl.methods)).filter MethodDecl.isAbstract

theorem filter_isAbstract_shownMethods (ht : p.transform = .standard protocol)
    (hprotocol : ∀ m ∈ protocol, m.isAbstract = false) :
    (p.shownMethods decl).filter MethodDecl.isAbstract = abstractMethods decl := by
  have hmade : (visible decl (accessors decl ++ enumHelpers decl ++
      protocolMethods protocol decl)).filter MethodDecl.isAbstract = [] := by
    rw [List.filter_eq_nil_iff]
    intro method hm
    simp [isAbstract_made hprotocol (visible_subset _ _ hm)]
  have hshown : p.shownMethods decl =
      visible decl (accessors decl ++ enumHelpers decl ++ protocolMethods protocol decl ++
        decl.methods.flatMap methodOverloads ++ decl.methods) := by
    rw [shownMethods, made, ht, visibleMethods, methods_capture]
    rfl
  rw [hshown, List.append_assoc, visible_append, List.filter_append, hmade, List.nil_append,
    abstractMethods]

/-- An abstract method in a stub comes from one that the class declares. -/
theorem exists_abstract_of_mem {method : MethodDecl} (h : method ∈ abstractMethods decl) :
    ∃ source ∈ decl.methods, source.isAbstract = true := by
  obtain ⟨hvisible, habstract⟩ := List.mem_filter.mp h
  rcases List.mem_append.mp (visible_subset _ _ hvisible) with hover | hown
  · obtain ⟨source, hsource, hmem⟩ := List.mem_flatMap.mp hover
    exact ⟨source, hsource, (isAbstract_overload hmem).symm.trans habstract⟩
  · exact ⟨method, hown, habstract⟩

/-- Whether an ordinary class that declares an abstract method is abstract itself. -/
def MarksAbstract (decl : ClassDecl) : Prop :=
  decl.kind = .ordinary → (∃ m ∈ decl.methods, m.isAbstract = true) →
    decl.modifiers.isAbstract = true

/-- The methods of one class: interfaces accept any, ordinary classes are marked, and an enum must
not show an abstract one. -/
theorem bareMethods_iff (dialect : Dialect) (ht : p.transform = .standard protocol)
    (hprotocol : ∀ m ∈ protocol, m.isAbstract = false) (hmarks : MarksAbstract decl) :
    (∀ m ∈ (p.shownMethods decl).map (shownMethod decl),
        m.IsBare dialect → (shownHeader decl).AllowsBare) ↔
      (decl.isEnum = true → abstractMethods decl = []) := by
  rw [List.forall_mem_map]
  simp only [isBare_shownMethod, allowsBare_shownHeader]
  have habstract : (p.shownMethods decl).filter MethodDecl.isAbstract = abstractMethods decl :=
    filter_isAbstract_shownMethods ht hprotocol
  cases hkind : decl.kind with
  | interface => simp [ClassDecl.isEnum, hkind]
  | ordinary =>
    refine iff_of_true (fun method hm hbare => .inr ⟨rfl, ?_⟩) (by simp [ClassDecl.isEnum, hkind])
    have hmethod : method.isAbstract = true := by
      simpa [isBodiless, ClassDecl.isInterface, hkind] using hbare
    have hmem : method ∈ abstractMethods decl :=
      habstract ▸ List.mem_filter.mpr ⟨hm, hmethod⟩
    exact hmarks hkind (exists_abstract_of_mem hmem)
  | enumeration =>
    rw [← habstract, List.filter_eq_nil_iff]
    simp [isBodiless, ClassDecl.isInterface, ClassDecl.isEnum, hkind]

/-- A class whose nested classes have bare signatures only where Java accepts them has so too if and
only if it is no enum that shows an abstract method. -/
theorem bareInAbstract_of_inner (dialect : Dialect) (ht : p.transform = .standard protocol)
    (hprotocol : ∀ m ∈ protocol, m.isAbstract = false) {outer : List String}
    (hmarks : MarksAbstract decl)
    (hinner : (∀ s ∈ p.shownAll rules decl.inner, s.BareInAbstract dialect) ↔
      ∀ place ∈ ClassDecl.listShownPlacements (Placement.scope ⟨decl, outer⟩) decl.inner,
        place.decl.isEnum = true → abstractMethods place.decl = []) :
    (∀ s ∈ p.shown rules decl, s.BareInAbstract dialect) ↔
      ∀ place ∈ decl.shownPlacements outer,
        place.decl.isEnum = true → abstractMethods place.decl = [] := by
  cases hd : decl.isAnonymous with
  | true => simp [p.shown_anonymous rules hd, ClassDecl.shownPlacements_anonymous hd]
  | false =>
    rw [p.shown_named rules hd, ClassDecl.shownPlacements_named hd, List.forall_mem_singleton,
      List.forall_mem_cons, ← hinner, ← bareMethods_iff dialect ht hprotocol hmarks]
    constructor
    · rintro ⟨hmethods, hnested⟩
      exact ⟨hmethods, hnested⟩
    · rintro ⟨hmethods, hnested⟩
      exact .mk hmethods hnested

mutual

/-- Bare signatures stand where Java accepts them if and only if no enum in the tree shows an
abstract method: induction over the tree, with the scope around it generalized because placements
carry it. -/
theorem bareInAbstract_iff (dialect : Dialect) (ht : p.transform = .standard protocol)
    (hprotocol : ∀ m ∈ protocol, m.isAbstract = false) : (decl : ClassDecl) →
      (outer : List String) → (∀ d ∈ decl.declarations, MarksAbstract d) →
      ((∀ s ∈ p.shown rules decl, s.BareInAbstract dialect) ↔
        ∀ place ∈ decl.shownPlacements outer,
          place.decl.isEnum = true → abstractMethods place.decl = [])
  | { inner, .. }, _, h => by
    rw [ClassDecl.declarations, List.forall_mem_cons] at h
    exact bareInAbstract_of_inner dialect ht hprotocol h.1
      (bareInAbstractAll_iff dialect ht hprotocol inner _ h.2)

theorem bareInAbstractAll_iff (dialect : Dialect) (ht : p.transform = .standard protocol)
    (hprotocol : ∀ m ∈ protocol, m.isAbstract = false) : (decls : List ClassDecl) →
      (outer : List String) → (∀ d ∈ ClassDecl.listDeclarations decls, MarksAbstract d) →
      ((∀ s ∈ p.shownAll rules decls, s.BareInAbstract dialect) ↔
        ∀ place ∈ ClassDecl.listShownPlacements outer decls,
          place.decl.isEnum = true → abstractMethods place.decl = [])
  | [], _, _ => by simp [shownAll, ClassDecl.listShownPlacements]
  | decl :: rest, outer, h => by
    rw [ClassDecl.listDeclarations, List.forall_mem_append] at h
    rw [shownAll, ClassDecl.listShownPlacements, List.forall_mem_append, List.forall_mem_append,
      bareInAbstract_iff dialect ht hprotocol decl outer h.1,
      bareInAbstractAll_iff dialect ht hprotocol rest outer h.2]

end

end Printer

open Printer (MarksAbstract abstractMethods)

/-- Let the ordinary classes of a tree that declare abstract methods be marked abstract. Then the
printed text is that of the shown tree, and each bare signature in it stands below the header of an
interface or one with the keyword `abstract`, if and only if no enum of the tree shows an abstract
method. -/
theorem stub_bareInAbstract_iff (dialect : Dialect) (index : ClassIndex)
    (protocol : List MethodDecl) (rules : List CallRule) (decl : ClassDecl)
    (hprotocol : ∀ m ∈ protocol, m.isAbstract = false)
    (hmarks : ∀ d ∈ decl.declarations, MarksAbstract d) :
    let p := Printer.standard dialect index protocol rules
    (p.print decl).1 = (p.shown rules decl).map (ShownClass.fragment dialect) ∧
      ((∀ s ∈ p.shown rules decl, s.BareInAbstract dialect) ↔
        ∀ place ∈ decl.shownPlacements [],
          place.decl.isEnum = true → abstractMethods place.decl = []) := by
  intro p
  have hconservative : Conservative p.transform := conservative_standard protocol
  exact ⟨(Printer.fragments_shown hconservative (Printer.follows_standard ..) decl).symm,
    Printer.bareInAbstract_iff dialect rfl hprotocol decl [] hmarks⟩

/-- An abstract class whose abstract method has an overload, with a nested interface and a nested
enum. -/
def signal : ClassDecl :=
  { name := "geo.Signal"
    modifiers := .ofList [.abstract]
    methods :=
      [((MethodDecl.ofName "raise").addParameter
        ((Parameter.ofName "times" .int).withDefault (.constant (.int 1)))).withoutBody]
    inner :=
      [{ name := "geo.Signal$Observer"
         kind := .interface
         nesting := .member
         methods := [.ofName "seen"] },
       { name := "geo.Signal$Level"
         kind := .enumeration
         nesting := .member
         fields := [.constantOf "HIGH" "geo.Signal$Level"]
         methods := [.ofName "lower"] }] }

theorem marksAbstract_signal : ∀ d ∈ signal.declarations, MarksAbstract d := by
  have hdeclarations : signal.declarations = signal :: signal.inner := rfl
  rw [hdeclarations]
  simp only [signal, List.forall_mem_cons, List.not_mem_nil, false_implies, implies_true, and_true]
  refine ⟨fun _ _ => by decide, ?_, ?_⟩
  · intro hkind
    simp at hkind
  · intro hkind
    simp at hkind

theorem signal_bareInAbstract :
    let p := Printer.standard {} ∅ [.ofName "reset"] CallRule.usual
    (p.print signal).1 = (p.shown CallRule.usual signal).map (ShownClass.fragment {}) ∧
      (abstractMethods signal).length = 2 ∧
      ∀ s ∈ p.shown CallRule.usual signal, s.BareInAbstract {} := by
  intro p
  obtain ⟨hprint, hiff⟩ := stub_bareInAbstract_iff {} ∅ [.ofName "reset"] CallRule.usual signal
    (by decide) marksAbstract_signal
  have hshown : signal.shownPlacements [] =
      [⟨signal, []⟩, ⟨signal.inner[0], []⟩, ⟨signal.inner[1], []⟩] := rfl
  refine ⟨hprint, by decide +kernel, hiff.mpr ?_⟩
  rw [hshown]
  simp only [List.forall_mem_cons, List.not_mem_nil, false_implies, implies_true, and_true]
  refine ⟨?_, ?_, fun _ => by decide +kernel⟩
  · intro henum
    simp [signal, ClassDecl.isEnum] at henum
  · intro henum
    simp [signal, ClassDecl.isEnum] at henum

/-- A public method that has no body. -/
def mix : MethodDecl :=
  { MethodDecl.ofName "mix" with hasBody := false }

/-- An enum with that method. -/
def shade : ClassDecl :=
  { name := "geo.Shade"
    kind := .enumeration
    fields := [{ name := "DARK", type := .ofName "geo.Shade", enumConstant := true }]
    methods := [mix] }

/-- No class is concerned, and yet the method of the enum is printed as abstract below a header
without that keyword. -/
theorem shade_not_bareInAbstract :
    let p := Printer.standard {} ∅ [] CallRule.usual
    (∀ d ∈ shade.declarations, MarksAbstract d) ∧
      (¬ ∀ s ∈ p.shown CallRule.usual shade, s.BareInAbstract {}) ∧
      (p.header shade).text = "enum Shade \x7b" ∧
      mix ∈ p.shownMethods shade ∧
      (p.methodLine shade mix).text = "public abstract void mix();" := by
  intro p
  have hgenerics : Dialect.genericsText {} [] = "" := by simp [Dialect.genericsText]
  have hvoid : Dialect.typeText {} .void = "void" := by
    rw [TypeRef.void, Dialect.typeText]
    rfl
  have hheader : p.header shade =
      { kind := .enumeration
        name := shade.simpleName
        modifiers := shade.modifiers.erase .abstract
        generics := Dialect.genericsText {} [] } := rfl
  have hline : p.methodLine shade mix =
      { name := "mix"
        modifiers := mix.modifiers.insert .abstract
        generics := Dialect.genericsText {} []
        returnType := Dialect.typeText {} .void
        body := .absent } := rfl
  refine ⟨?_, ?_, ?_, ?_, ?_⟩
  · have hdeclarations : shade.declarations = [shade] := rfl
    rw [hdeclarations, List.forall_mem_singleton]
    intro hkind
    simp [shade] at hkind
  · intro h
    rw [p.shown_named CallRule.usual rfl, List.forall_mem_singleton] at h
    obtain ⟨hmethods, -⟩ := h
    have hmarks : MarksAbstract shade := fun hkind => by simp [shade] at hkind
    have habstract : abstractMethods shade = [] :=
      (Printer.bareMethods_iff {} rfl (by simp) hmarks).mp hmethods rfl
    revert habstract
    decide +kernel
  · rw [hheader, hgenerics]
    decide +kernel
  · rw [shownMethods_standard, List.mem_append]
    exact .inr (List.mem_filter.mpr ⟨List.mem_singleton_self mix, by decide +kernel⟩)
  · rw [hline, hgenerics, hvoid]
    decide +kernel

end Stubs

end JavaStubs
