import JavaStubs.Proofs.MadeMembers
import JavaStubs.Proofs.TypeVariables

/-!
# Stubs name type variables in scope

Where the declarations of a model name only type variables in scope, so do their stubs, with one
exception: a call of a constructor of the super class is cast to the types of that constructor's
parameters as the super class declares them. A stub is in scope if and only if the variables in
these types happen to be in scope of the class that makes the call; a class that extends a generic
class with concrete arguments shows that they need not be.
-/
namespace JavaStubs

namespace Normalization

variable {scope : List String}

theorem variables_subset_of_overload {parameters kept : List Parameter}
    (hk : kept ∈ overloads parameters) :
    kept.flatMap Parameter.variables ⊆ parameters.flatMap Parameter.variables := by
  intro name hn
  obtain ⟨parameter, hp, hn⟩ := List.mem_flatMap.mp hn
  obtain ⟨source, hs, rfl⟩ := List.mem_map.mp ((sublist_of_mem_overloads hk).subset hp)
  simp only [Parameter.variables, Parameter.withoutDefault, Option.toList_none, List.flatMap_nil,
    List.append_nil] at hn
  exact List.mem_flatMap.mpr ⟨source, hs, List.mem_append_left _ hn⟩

theorem keepsTo_methodOverload {method overload : MethodDecl} (h : method.KeepsTo scope)
    (ho : overload ∈ methodOverloads method) : overload.KeepsTo scope := by
  obtain ⟨kept, hk, rfl⟩ := List.mem_map.mp ho
  simp only [MethodDecl.KeepsTo, MethodDecl.variables, List.append_subset] at h ⊢
  exact ⟨⟨⟨h.1.1.1, List.Subset.trans (variables_subset_of_overload hk) h.1.1.2⟩, h.1.2⟩, h.2⟩

theorem variables_delegationArgument (kept : List Parameter) (parameter : Parameter) :
    (delegationArgument kept parameter).variables ⊆ parameter.variables := by
  unfold delegationArgument
  split
  · simp [Expression.variables, Expression.type?, Parameter.variables]
  · cases hd : parameter.default with
    | none => simp [Expression.variables, Expression.type?, Parameter.variables]
    | some value => simp [Parameter.variables, hd]

theorem variables_constructorOverload {constructor overload : ConstructorDecl}
    (h : constructor.variables ⊆ scope) (ho : overload ∈ constructorOverloads constructor) :
    overload.variables ⊆ scope := by
  obtain ⟨kept, hk, rfl⟩ := List.mem_map.mp ho
  simp only [ConstructorDecl.variables, List.append_subset] at h
  obtain ⟨⟨hparameters, hexceptions⟩, -⟩ := h
  simp only [ConstructorDecl.variables, constructorOverload, DelegationCall.thisCall,
    Option.toList_some, List.flatMap_singleton, List.append_subset]
  refine ⟨⟨List.Subset.trans (variables_subset_of_overload hk) hparameters, hexceptions⟩, ?_⟩
  intro name hn
  obtain ⟨argument, ha, hn⟩ := List.mem_flatMap.mp hn
  obtain ⟨parameter, hp, rfl⟩ := List.mem_map.mp ha
  exact hparameters
    (List.mem_flatMap.mpr ⟨parameter, hp, variables_delegationArgument kept parameter hn⟩)

theorem keepsTo_accessor {property : PropertyDecl} (h : property.type.variables ⊆ scope)
    {method : MethodDecl} (hm : method ∈ accessorsOf property) : method.KeepsTo scope := by
  have hgetter : (getter property).KeepsTo scope := by
    simpa [MethodDecl.KeepsTo, MethodDecl.variables, getter, Generic.listVariables,
      Generic.declared] using h
  have hsetter : (setter property).KeepsTo scope := by
    simpa [MethodDecl.KeepsTo, MethodDecl.variables, setter, Generic.listVariables,
      Generic.declared, Parameter.variables, Parameter.ofName] using h
  unfold accessorsOf at hm
  split at hm
  · obtain rfl := List.mem_singleton.mp hm
    exact hgetter
  · rcases List.mem_cons.mp hm with rfl | hm
    · exact hgetter
    · obtain rfl := List.mem_singleton.mp hm
      exact hsetter

theorem keepsTo_helper {name : String} {method : MethodDecl} (hm : method ∈ helpersOf name) :
    method.KeepsTo scope := by
  simp only [helpersOf, List.mem_cons, List.not_mem_nil, or_false] at hm
  rcases hm with rfl | rfl | rfl | rfl <;>
    simp [MethodDecl.KeepsTo, MethodDecl.variables, TypeRef.variables, Generic.listVariables,
      Parameter.variables, Parameter.ofName]

/-- The methods that are made for a class keep to its scope as its own do. -/
theorem keepsTo_madeMethod {protocol : List MethodDecl} {decl : ClassDecl}
    (h : decl.KeepsTo scope) (hp : ∀ m ∈ protocol, m.KeepsTo []) {method : MethodDecl}
    (hm : method ∈ (capture (Transform.standard protocol) decl).1.methods) :
    method.KeepsTo scope := by
  rw [methods_capture] at hm
  simp only [List.mem_append] at hm
  rcases hm with ((hm | hm) | hm) | hm
  · obtain ⟨property, hproperty, hm⟩ := List.mem_flatMap.mp (List.mem_filter.mp hm).1
    exact keepsTo_accessor (h.properties property hproperty) hm
  · exact keepsTo_helper ((enumHelpers_sublist decl).subset hm)
  · have hclosed := hp method ((protocolMethods_sublist protocol decl).subset hm)
    exact List.Subset.trans hclosed (List.subset_append_right scope _)
  · obtain ⟨source, hs, hm⟩ := List.mem_flatMap.mp hm
    exact keepsTo_methodOverload (h.methods source hs) hm

/-- So do the constructors that are made for it. -/
theorem variables_madeConstructor {protocol : List MethodDecl} {decl : ClassDecl}
    (h : decl.KeepsTo scope) {constructor : ConstructorDecl}
    (hm : constructor ∈ (capture (Transform.standard protocol) decl).1.constructors) :
    constructor.variables ⊆ scope := by
  rw [constructors_capture, List.mem_append] at hm
  rcases hm with hm | hm
  · unfold implicitConstructors at hm
    split at hm
    · obtain rfl := List.mem_singleton.mp hm
      simp [implicitConstructor, ConstructorDecl.variables, DelegationCall.superCall]
    · simp at hm
  · obtain ⟨source, hs, hm⟩ := List.mem_flatMap.mp hm
    exact variables_constructorOverload (h.constructors source hs) hm

end Normalization

namespace Stubs

open Source (Dialect)

variable {scope : List String}

/-- The constructor's own call names what the constructor names. -/
theorem CallSite.variables_ownShown {site : CallSite} (h : site.constructor.variables ⊆ scope)
    (hcall : site.constructor.firstCall = some site.call) :
    site.ownShown.variables ⊆ scope := by
  simp only [ConstructorDecl.variables, hcall, Option.toList_some, List.flatMap_singleton,
    List.append_subset] at h
  obtain ⟨⟨hparameters, -⟩, harguments⟩ := h
  intro name hn
  obtain ⟨type, ht, hn⟩ := List.mem_flatMap.mp hn
  rcases mem_types_ownShown ht with rfl | ⟨p, hp, rfl⟩ | ⟨argument, ha, htype⟩
  · simp at hn
  · exact hparameters (List.mem_flatMap.mpr ⟨p, hp, List.mem_append_left _ hn⟩)
  · refine harguments (List.mem_flatMap.mpr ⟨argument, ha, ?_⟩)
    simpa [Expression.variables, htype] using hn

/-- The chosen call names only variables in scope if and only if the parameters of the constructor
that it is chosen for do. -/
theorem CallSite.variables_shownCall_iff {site : CallSite}
    (h : site.constructor.variables ⊆ scope)
    (hcall : site.constructor.firstCall = some site.call) (rules : List CallRule) :
    (site.shownCall rules).variables ⊆ scope ↔
      ∀ target, site.borrowed? rules = some target →
        ∀ p ∈ target.parameters, p.type.variables ⊆ scope := by
  rcases site.shownCall_cases rules with ⟨target, htarget, heq⟩ | ⟨hnone, heq | heq⟩
  · rw [heq, htarget, ShownCall.variables, ShownCall.types_superCall]
    constructor
    · rintro hsub _ ⟨⟩ p hp
      exact fun name hn => hsub (List.mem_flatMap.mpr ⟨_, List.mem_map_of_mem hp, hn⟩)
    · intro hparameters name hn
      obtain ⟨type, ht, hn⟩ := List.mem_flatMap.mp hn
      obtain ⟨p, hp, rfl⟩ := List.mem_map.mp ht
      exact hparameters target rfl p hp hn
  · simp [heq, hnone, ShownCall.variables]
  · rw [heq, hnone]
    simp [CallSite.variables_ownShown h hcall]

namespace Printer

/-- Whether the calls that those rules choose in a class take over only type variables in its scope
from the constructors of the super class that they are chosen for. -/
def BorrowsInScope (p : Printer) (rules : List CallRule) (place : Placement) : Prop :=
  ∀ constructor ∈ p.shownConstructors place.decl, ∀ call, constructor.firstCall = some call →
    ∀ target,
      CallSite.borrowed? ⟨place.decl, constructor, call, p.index, p.dialect⟩ rules = some target →
        ∀ parameter ∈ target.parameters, parameter.type.variables ⊆ place.scope

variable {p : Printer} {protocol : List MethodDecl} {rules : List CallRule} {decl : ClassDecl}

theorem keepsTo_shownMethod (ht : p.transform = .standard protocol)
    (hp : ∀ m ∈ protocol, m.KeepsTo []) (h : decl.KeepsTo scope) {method : MethodDecl}
    (hm : method ∈ p.shownMethods decl) : method.KeepsTo scope := by
  rcases List.mem_append.mp (List.mem_filter.mp hm).1 with hm | hm
  · rw [made, ht] at hm
    exact Normalization.keepsTo_madeMethod h hp hm
  · exact h.methods method hm

theorem variables_shownConstructor (ht : p.transform = .standard protocol)
    (h : decl.KeepsTo scope) {constructor : ConstructorDecl}
    (hm : constructor ∈ p.shownConstructors decl) : constructor.variables ⊆ scope := by
  unfold shownConstructors visibleConstructors at hm
  split at hm
  · simp at hm
  · rcases List.mem_append.mp hm with hm | hm
    · rw [made, ht] at hm
      exact Normalization.variables_madeConstructor h hm
    · exact h.constructors constructor hm

theorem parameterVariables_subset (parameters : List Parameter) :
    ((parameters.map ShownParameter.of).flatMap fun q => q.type.variables) ⊆
      parameters.flatMap Parameter.variables := by
  intro name hn
  obtain ⟨shown, hs, hn⟩ := List.mem_flatMap.mp hn
  obtain ⟨parameter, hp, rfl⟩ := List.mem_map.mp hs
  exact List.mem_flatMap.mpr ⟨parameter, hp, List.mem_append_left _ hn⟩

theorem variables_shownMethod {method : MethodDecl} (h : method.KeepsTo scope) :
    (shownMethod decl method).variables ⊆ scope ++ Generic.declared method.generics := by
  simp only [MethodDecl.KeepsTo, MethodDecl.variables, List.append_subset] at h
  obtain ⟨⟨⟨hresult, hparameters⟩, hgenerics⟩, hexceptions⟩ := h
  have hbody : (shownBody decl method).variables ⊆ scope ++ Generic.declared method.generics := by
    unfold shownBody
    repeat' split
    · simp [ShownBody.variables]
    · simp [ShownBody.variables]
    · exact hresult
  simp only [ShownMethod.variables, shownMethod, List.append_subset]
  have hshown := List.Subset.trans (parameterVariables_subset method.parameters) hparameters
  exact ⟨⟨⟨⟨hgenerics, hresult⟩, hshown⟩, hexceptions⟩, hbody⟩

theorem variables_shownHeader (h : decl.KeepsTo scope) :
    (shownHeader decl).variables ⊆ scope := by
  have hsuper : (decl.superClass.getD ClassType.object).variables ⊆ scope := by
    cases hs : decl.superClass with
    | none => simp
    | some type => exact h.superClass type hs
  simp only [ShownHeader.variables, shownHeader, List.append_subset]
  refine ⟨⟨h.generics, ?_⟩, h.interfaces⟩
  split
  · simpa using hsuper
  · simp

/-- Of what a constructor shows, only the call can name a variable out of scope. -/
theorem variables_shownConstructor_iff {constructor : ConstructorDecl}
    (h : constructor.variables ⊆ scope) :
    (p.shownConstructor rules decl constructor).variables ⊆ scope ↔
      ∀ call, constructor.firstCall = some call → ∀ target,
        CallSite.borrowed? ⟨decl, constructor, call, p.index, p.dialect⟩ rules = some target →
          ∀ q ∈ target.parameters, q.type.variables ⊆ scope := by
  have hparts := h
  simp only [ConstructorDecl.variables, List.append_subset] at hparts
  obtain ⟨⟨hparameters, hexceptions⟩, -⟩ := hparts
  have hsignature :=
    List.Subset.trans (parameterVariables_subset constructor.parameters) hparameters
  simp only [ShownConstructor.variables, shownConstructor, List.append_subset, hsignature,
    hexceptions, true_and]
  cases hcall : constructor.firstCall with
  | none => simp
  | some call =>
    have hiff := @CallSite.variables_shownCall_iff scope
      ⟨decl, constructor, call, p.index, p.dialect⟩ h hcall rules
    simpa using hiff

/-- A class whose nested classes are in scope is in scope if and only if its calls are. -/
theorem inScope_of_inner (ht : p.transform = .standard protocol)
    (hp : ∀ m ∈ protocol, m.KeepsTo []) {outer : List String}
    (h : decl.KeepsTo (Placement.scope ⟨decl, outer⟩))
    (hinner : (∀ s ∈ p.shownAll rules decl.inner, s.InScope (Placement.scope ⟨decl, outer⟩)) ↔
      ∀ place ∈ ClassDecl.listShownPlacements (Placement.scope ⟨decl, outer⟩) decl.inner,
        p.BorrowsInScope rules place) :
    (∀ s ∈ p.shown rules decl, s.InScope outer) ↔
      ∀ place ∈ decl.shownPlacements outer, p.BorrowsInScope rules place := by
  have hconstructor : ∀ c ∈ p.shownConstructors decl,
      (p.shownConstructor rules decl c).variables ⊆ Placement.scope ⟨decl, outer⟩ ↔ _ :=
    fun c hc => variables_shownConstructor_iff (variables_shownConstructor ht h hc)
  cases hd : decl.isAnonymous with
  | true => simp [p.shown_anonymous rules hd, ClassDecl.shownPlacements_anonymous hd]
  | false =>
    rw [p.shown_named rules hd, ClassDecl.shownPlacements_named hd, List.forall_mem_singleton,
      List.forall_mem_cons, ← hinner]
    constructor
    · rintro ⟨-, -, hconstructors, -, hnested⟩
      refine ⟨fun c hc => ?_, hnested⟩
      exact (hconstructor c hc).mp (hconstructors _ (List.mem_map_of_mem hc))
    · rintro ⟨hborrows, hnested⟩
      refine ⟨variables_shownHeader h, ?_, ?_, ?_, hnested⟩
      · intro field hf
        obtain ⟨declared, hfield, rfl⟩ := List.mem_map.mp hf
        exact h.fields declared (List.mem_filter.mp hfield).1
      · intro c hc
        obtain ⟨constructor, hm, rfl⟩ := List.mem_map.mp hc
        exact (hconstructor constructor hm).mpr (hborrows constructor hm)
      · intro m hm
        obtain ⟨method, hmethod, rfl⟩ := List.mem_map.mp hm
        exact variables_shownMethod (keepsTo_shownMethod ht hp h hmethod)

mutual

/-- The stub of a tree is in scope if and only if the calls in it are: induction over the tree with
the scope around it generalized, since each class adds its own variables for what is nested in it. -/
theorem inScope_iff (ht : p.transform = .standard protocol)
    (hp : ∀ m ∈ protocol, m.KeepsTo []) : (decl : ClassDecl) → (outer : List String) →
      (∀ place ∈ decl.placements outer, place.decl.KeepsTo place.scope) →
      ((∀ s ∈ p.shown rules decl, s.InScope outer) ↔
        ∀ place ∈ decl.shownPlacements outer, p.BorrowsInScope rules place)
  | { inner, .. }, outer, h => by
    rw [ClassDecl.placements_eq, List.forall_mem_cons] at h
    exact inScope_of_inner ht hp h.1 (inScopeAll_iff ht hp inner _ h.2)

theorem inScopeAll_iff (ht : p.transform = .standard protocol)
    (hp : ∀ m ∈ protocol, m.KeepsTo []) : (decls : List ClassDecl) → (outer : List String) →
      (∀ place ∈ ClassDecl.listPlacements outer decls, place.decl.KeepsTo place.scope) →
      ((∀ s ∈ p.shownAll rules decls, s.InScope outer) ↔
        ∀ place ∈ ClassDecl.listShownPlacements outer decls, p.BorrowsInScope rules place)
  | [], _, _ => by simp [shownAll, ClassDecl.listShownPlacements]
  | decl :: rest, outer, h => by
    rw [ClassDecl.listPlacements, List.forall_mem_append] at h
    rw [shownAll, ClassDecl.listShownPlacements, List.forall_mem_append, List.forall_mem_append,
      inScope_iff ht hp decl outer h.1, inScopeAll_iff ht hp rest outer h.2]

end

end Printer

/-- Let the source declarations of a model name only type variables in scope. Then the stub of any
of them, which is the text of a tree with the types that it shows, names only variables in scope if
and only if this is true of the parameter types that its calls take over from constructors of super
classes. -/
theorem stub_inScope_iff (protocol : List MethodDecl) (rules : List CallRule)
    (model : DeclarationModel) (hprotocol : ∀ m ∈ protocol, m.KeepsTo [])
    (hmodel : ∀ place ∈ model.placements, place.decl.KeepsTo place.scope) (place : Placement)
    (hplace : place ∈ model.placements) :
    let p := Printer.standard {} (.ofModel model) protocol rules
    (p.print place.decl).1 = (p.shown rules place.decl).map (ShownClass.fragment {}) ∧
      ((∀ s ∈ p.shown rules place.decl, s.InScope place.outer) ↔
        ∀ inside ∈ place.decl.shownPlacements place.outer, p.BorrowsInScope rules inside) := by
  intro p
  have hconservative : Conservative p.transform := conservative_standard protocol
  have hinside : place.decl.placements place.outer ⊆ model.placements :=
    ClassDecl.listPlacements_subset [] model.topLevel hplace
  refine ⟨(Printer.fragments_shown hconservative (Printer.follows_standard ..) place.decl).symm, ?_⟩
  exact Printer.inScope_iff rfl hprotocol place.decl place.outer fun q hq => hmodel q (hinside hq)

/-- A generic class with a constructor that takes a value of its type variable. -/
def box : ClassDecl :=
  { name := "geo.Box"
    generics := [.placeholder "T"]
    constructors :=
      [(ConstructorDecl.ofModifiers (.ofList [.publicAccess])).addParameter
        (.ofName "content" (.typeVariable "T"))] }

/-- A nested class that uses a type variable of its owner. -/
def lid : ClassDecl :=
  { name := "geo.Crate$Lid"
    nesting := .member
    properties := [.ofName "below" (.typeVariable "T")] }

/-- A class that extends the generic one with a type variable of the same name. -/
def crate : ClassDecl :=
  { name := "geo.Crate"
    generics := [.placeholder "T"]
    superClass := some ((ClassType.ofName "geo.Box").addGeneric (.placeholder "T"))
    constructors :=
      [((ConstructorDecl.ofModifiers (.ofList [.publicAccess])).addParameter
        (.ofName "content" (.typeVariable "T"))).delegating
          (.superCall [.reference "content" (.typeVariable "T")])]
    inner := [lid] }

/-- A class that extends the generic one with strings for the type variable. -/
def label : ClassDecl :=
  { name := "geo.Label"
    superClass := some ((ClassType.ofName "geo.Box").addGeneric (.ofType .string))
    constructors :=
      [(ConstructorDecl.ofModifiers (.ofList [.publicAccess])).delegating
        (.superCall [.constant (.string "fragile")])] }

/-- These classes in one model. -/
def shelf : DeclarationModel :=
  { units := [{ classes := [box, crate, label] }] }

theorem keepsTo_shelf : ∀ place ∈ shelf.placements, place.decl.KeepsTo place.scope := by
  have hplacements : shelf.placements =
      [⟨box, []⟩, ⟨crate, []⟩, ⟨lid, ["T"]⟩, ⟨label, []⟩] := rfl
  rw [hplacements]
  simp only [List.forall_mem_cons, List.not_mem_nil, false_implies, implies_true, and_true]
  refine ⟨?_, ?_, ?_, ?_⟩
  all_goals constructor
  all_goals decide

theorem crate_inScope :
    let p := Printer.standard {} (.ofModel shelf) [] CallRule.usual
    (p.print crate).1 = (p.shown CallRule.usual crate).map (ShownClass.fragment {}) ∧
      ∀ s ∈ p.shown CallRule.usual crate, s.InScope [] := by
  intro p
  obtain ⟨hprint, hiff⟩ := stub_inScope_iff [] CallRule.usual shelf (by simp) keepsTo_shelf
    ⟨crate, []⟩ (List.mem_cons_of_mem _ List.mem_cons_self)
  refine ⟨hprint, hiff.mpr ?_⟩
  have hshown : crate.shownPlacements [] = [⟨crate, []⟩, ⟨lid, ["T"]⟩] := rfl
  rw [hshown, List.forall_mem_cons, List.forall_mem_singleton]
  constructor
  all_goals
    intro constructor hc call hcall target htarget
    have hknown := CallSite.accessibleSuper?_of_borrowed? htarget
  · have hbox : box.constructors.head? = some target := hknown
    obtain rfl := Option.some.inj hbox
    decide
  · have hobject : none = some target := hknown
    simp at hobject

/-- The call in the class that extends with strings is cast to a type variable that is not in
scope. -/
theorem label_not_inScope :
    let p := Printer.standard {} (.ofModel shelf) [] CallRule.usual
    (∀ place ∈ shelf.placements, place.decl.KeepsTo place.scope) ∧
      ⟨label, []⟩ ∈ shelf.placements ∧ (¬ ∀ s ∈ p.shown CallRule.usual label, s.InScope []) ∧
      ∀ c ∈ p.shownConstructors label,
        (p.constructorText label c).delegation = some "super((T)null);" := by
  intro p
  refine ⟨keepsTo_shelf, ?_, ?_, ?_⟩
  · exact List.mem_cons_of_mem _
      (List.mem_cons_of_mem _ (List.mem_cons_of_mem _ List.mem_cons_self))
  · intro h
    rw [p.shown_named CallRule.usual rfl, List.forall_mem_singleton] at h
    obtain ⟨-, -, hconstructors, -, -⟩ := h
    have hcast := hconstructors _ List.mem_cons_self
    revert hcast
    decide +kernel
  · have hshown : p.shownConstructors label = label.constructors := rfl
    rw [hshown, label, List.forall_mem_singleton]
    have hcall : (p.constructorText label (label.constructors.head (by decide))).delegation =
        some (callText .superClass [Dialect.defaultValue {} (.typeVariable "T")]) := rfl
    have hcast : Dialect.defaultValue {} (.typeVariable "T") = "(T)null" := by
      rw [Dialect.defaultValue, TypeRef.typeVariable, Dialect.typeText]
      rfl
    rw [hcast] at hcall
    exact hcall

end Stubs

end JavaStubs
