import JavaStubs.Proofs.Signatures

/-!
# Members that are shown twice

A normalization makes members of five kinds one after the other. Accessors, helpers and methods of
the object protocol are not made if the class declares them, but nothing compares them with each
other, and nothing at all compares overloads with anything. So the members that a stub shows are
distinct exactly if the members of those few pairs of kinds happen to be apart.
-/
namespace JavaStubs.Stubs

open Normalization
open Source (Dialect)

namespace Printer

/-- The methods of a list that appear in the stub of a class. -/
def visible (decl : ClassDecl) (methods : List MethodDecl) : List MethodDecl :=
  methods.filter fun m => isPrintable m && !(decl.isEnum && isImplicitInEnum m)

theorem visible_append (decl : ClassDecl) (first second : List MethodDecl) :
    visible decl (first ++ second) = visible decl first ++ visible decl second :=
  List.filter_append ..

theorem visible_flatMap (decl : ClassDecl) {α : Type} (items : List α) (f : α → List MethodDecl) :
    visible decl (items.flatMap f) = items.flatMap fun item => visible decl (f item) :=
  List.filter_flatMap ..

theorem visible_subset (decl : ClassDecl) (methods : List MethodDecl) :
    visible decl methods ⊆ methods :=
  List.filter_sublist.subset

theorem nodup_visible {dialect : Dialect} {decl : ClassDecl} {methods : List MethodDecl}
    (h : (methods.map dialect.signature).Nodup) :
    ((visible decl methods).map dialect.signature).Nodup :=
  h.sublist (List.filter_sublist.map _)

end Printer

open Printer (visible visible_append visible_flatMap visible_subset nodup_visible)

/-- The signatures of the methods that every enum has without declaring them. -/
def enumSignatures : List (String × List String) :=
  [("values", []), ("valueOf", [Names.string])]

/-- No member of a class is shown twice, and no method of an enum that it has anyway. -/
structure DistinctMembers (p : Printer) (decl : ClassDecl) : Prop where
  methods : ((p.shownMethods decl).map p.dialect.signature).Nodup
  constructors : ((p.shownConstructors decl).map p.dialect.parameterTypes).Nodup
  enumMembers : decl.isEnum = true →
    ∀ method ∈ p.shownMethods decl, p.dialect.signature method ∉ enumSignatures

/-- The methods that nothing compares are apart, as far as they are shown. -/
structure MethodsApart (dialect : Dialect) (protocol : List MethodDecl) (decl : ClassDecl) :
    Prop where
  /-- Accessors of two properties, whose names can differ in the case of their first letters. -/
  accessors : decl.properties.Pairwise fun p q =>
    Apart dialect.signature (visible decl (undeclared decl (accessorsOf p)))
      (visible decl (undeclared decl (accessorsOf q)))
  /-- The object protocol, and accessors and helpers. -/
  objectProtocol : Apart dialect.signature (visible decl (protocolMethods protocol decl))
    (visible decl (Normalization.accessors decl ++ enumHelpers decl))
  /-- Overloads of two methods. -/
  overloads : decl.methods.Pairwise fun m n =>
    Apart dialect.signature (visible decl (methodOverloads m)) (visible decl (methodOverloads n))
  /-- Overloads and all methods that are none. -/
  others : Apart dialect.signature (visible decl (decl.methods.flatMap methodOverloads))
    (visible decl (Normalization.accessors decl ++ enumHelpers decl ++
      protocolMethods protocol decl ++ decl.methods))
  /-- Overloads and the methods that every enum has. -/
  enumMembers : decl.isEnum = true →
    ∀ method ∈ visible decl (decl.methods.flatMap methodOverloads),
      dialect.signature method ∉ enumSignatures

/-- The constructors that nothing compares are apart. -/
structure ConstructorsApart (dialect : Dialect) (decl : ClassDecl) : Prop where
  /-- Overloads of two constructors. -/
  overloads : decl.constructors.Pairwise fun c d =>
    Apart dialect.parameterTypes (constructorOverloads c) (constructorOverloads d)
  /-- Overloads and the constructors that the class declares. -/
  others : Apart dialect.parameterTypes (decl.constructors.flatMap constructorOverloads)
    decl.constructors

section

variable {dialect : Dialect} {protocol : List MethodDecl} {decl : ClassDecl}

theorem nodup_accessors_iff : ((visible decl (accessors decl)).map dialect.signature).Nodup ↔
    decl.properties.Pairwise fun p q =>
      Apart dialect.signature (visible decl (undeclared decl (accessorsOf p)))
        (visible decl (undeclared decl (accessorsOf q))) := by
  have hundeclared : undeclared decl (decl.properties.flatMap accessorsOf) =
      decl.properties.flatMap fun p => undeclared decl (accessorsOf p) := List.filter_flatMap ..
  rw [accessors, hundeclared, visible_flatMap, nodup_map_flatMap]
  refine and_iff_right ?_
  intro property _
  exact nodup_visible ((nodup_accessorsOf property).sublist (List.filter_sublist.map _))

theorem nodup_overloads_iff :
    ((visible decl (decl.methods.flatMap methodOverloads)).map dialect.signature).Nodup ↔
      decl.methods.Pairwise fun m n => Apart dialect.signature (visible decl (methodOverloads m))
        (visible decl (methodOverloads n)) := by
  rw [visible_flatMap, nodup_map_flatMap]
  exact and_iff_right fun method _ => nodup_visible (nodup_methodOverloads method)

theorem nodup_helpers : ((visible decl (enumHelpers decl)).map dialect.signature).Nodup :=
  nodup_visible ((nodup_helpersOf decl.name).sublist ((enumHelpers_sublist decl).map _))

theorem nodup_protocol (h : (protocol.map dialect.signature).Nodup) :
    ((visible decl (protocolMethods protocol decl)).map dialect.signature).Nodup :=
  nodup_visible (h.sublist ((protocolMethods_sublist protocol decl).map _))

/-- Accessors, helpers and methods of the object protocol stay apart from what the class
declares. -/
theorem apart_made_declared :
    Apart dialect.signature (accessors decl ++ enumHelpers decl ++ protocolMethods protocol decl)
      decl.methods := by
  rw [apart_append_left, apart_append_left]
  refine ⟨⟨apart_undeclared _, ?_⟩, ?_⟩
  · unfold enumHelpers
    split
    · exact apart_undeclared _
    · exact apart_nil_left
  · unfold protocolMethods
    split
    · exact apart_nil_left
    · exact apart_undeclared _

theorem head?_enumSignature {signature : String × List String} (h : signature ∈ enumSignatures) :
    signature.1.toList.head? = some 'v' := by
  simp only [enumSignatures, List.mem_cons, List.not_mem_nil, or_false] at h
  rcases h with rfl | rfl <;> rfl

theorem accessor_not_enumMember :
    ∀ method ∈ accessors decl, dialect.signature method ∉ enumSignatures := by
  intro method hm henum
  obtain ⟨property, -, hp⟩ := List.mem_flatMap.mp (List.mem_filter.mp hm).1
  have hletter := head?_name_accessor hp
  have hv : method.name.toList.head? = some 'v' := head?_enumSignature henum
  simp [hv] at hletter

/-- The helpers that every enum has are not shown. -/
theorem helper_not_enumMember (he : decl.isEnum = true) :
    ∀ method ∈ visible decl (enumHelpers decl), dialect.signature method ∉ enumSignatures := by
  intro method hm henum
  obtain ⟨hm, hvisible⟩ := List.mem_filter.mp hm
  rw [enumHelpers, if_pos he] at hm
  have hhelper := (List.mem_filter.mp hm).1
  have hletter : method.name.toList.head? = some 'v' := head?_enumSignature henum
  have hsynthetic : (Modifiers.ofList [.publicAccess, .static, .synthetic]).isSynthetic = true := by
    decide
  have hstring : TypeRef.string.isString = true := by decide
  have hshown : isImplicitInEnum method = false := by
    rw [he] at hvisible
    simp only [Bool.true_and, Bool.and_eq_true, Bool.not_eq_true'] at hvisible
    exact hvisible.2
  simp only [helpersOf, List.mem_cons, List.not_mem_nil, or_false] at hhelper
  rcases hhelper with rfl | rfl | rfl | rfl
  · simp [isImplicitInEnum, MethodDecl.isSynthetic, hsynthetic] at hshown
  · simp [isImplicitInEnum, MethodDecl.isSynthetic, hsynthetic, Parameter.ofName, hstring] at hshown
  · simp at hletter
  · simp at hletter

theorem shownMethods_standard (index : ClassIndex) (rules : List CallRule) :
    (Printer.standard dialect index protocol rules).shownMethods decl =
      visible decl (accessors decl ++ enumHelpers decl ++ protocolMethods protocol decl) ++
        visible decl (decl.methods.flatMap methodOverloads) ++ visible decl decl.methods := by
  rw [← visible_append, ← visible_append, ← methods_capture]
  rfl

theorem nodup_made_iff (hprotocol : (protocol.map dialect.signature).Nodup) :
    ((visible decl (accessors decl ++ enumHelpers decl ++ protocolMethods protocol decl)).map
        dialect.signature).Nodup ↔
      ((visible decl (accessors decl)).map dialect.signature).Nodup ∧
        Apart dialect.signature (visible decl (protocolMethods protocol decl))
          (visible decl (accessors decl ++ enumHelpers decl)) := by
  have hapart : Apart dialect.signature (visible decl (accessors decl))
      (visible decl (enumHelpers decl)) :=
    apart_accessors_helpers.mono (visible_subset _ _) (visible_subset _ _)
  rw [visible_append, nodup_map_append, visible_append, nodup_map_append]
  constructor
  · rintro ⟨⟨haccessors, -, -⟩, -, hmade⟩
    exact ⟨haccessors, hmade.symm⟩
  · rintro ⟨haccessors, hmade⟩
    exact ⟨⟨haccessors, nodup_helpers, hapart⟩, nodup_protocol hprotocol, hmade.symm⟩

/-- Only an overload can be a method that every enum has. -/
theorem enumMember_mem_overloads (he : decl.isEnum = true)
    (henum : ∀ method ∈ decl.methods ++ protocol, dialect.signature method ∉ enumSignatures)
    {method : MethodDecl}
    (hm : method ∈ visible decl (accessors decl ++ enumHelpers decl ++
      protocolMethods protocol decl) ++ visible decl (decl.methods.flatMap methodOverloads) ++
      visible decl decl.methods)
    (hmember : dialect.signature method ∈ enumSignatures) :
    method ∈ visible decl (decl.methods.flatMap methodOverloads) := by
  simp only [visible_append, List.mem_append] at hm
  rcases hm with (((hm | hm) | hm) | hm) | hm
  · exact absurd hmember (accessor_not_enumMember method (visible_subset _ _ hm))
  · exact absurd hmember (helper_not_enumMember he method hm)
  · have hmem := (protocolMethods_sublist protocol decl).subset (visible_subset _ _ hm)
    exact absurd hmember (henum method (List.mem_append_right _ hmem))
  · exact hm
  · exact absurd hmember (henum method (List.mem_append_left _ (visible_subset _ _ hm)))

/-- The shown methods of a class are distinct exactly if those that nothing compares are apart. -/
theorem shownMethods_iff (index : ClassIndex) (rules : List CallRule)
    (hprotocol : (protocol.map dialect.signature).Nodup)
    (hmethods : (decl.methods.map dialect.signature).Nodup)
    (henum : decl.isEnum = true → ∀ method ∈ decl.methods ++ protocol,
      dialect.signature method ∉ enumSignatures) :
    let shown := (Printer.standard dialect index protocol rules).shownMethods decl
    ((shown.map dialect.signature).Nodup ∧
        (decl.isEnum = true → ∀ method ∈ shown, dialect.signature method ∉ enumSignatures)) ↔
      MethodsApart dialect protocol decl := by
  intro shown
  have hdeclared : ((visible decl decl.methods).map dialect.signature).Nodup :=
    nodup_visible hmethods
  have hmade : Apart dialect.signature
      (visible decl (accessors decl ++ enumHelpers decl ++ protocolMethods protocol decl))
      (visible decl decl.methods) :=
    apart_made_declared.mono (visible_subset _ _) (visible_subset _ _)
  have hshown : shown = _ := shownMethods_standard index rules
  rw [hshown, nodup_map_append, nodup_map_append, nodup_made_iff hprotocol,
    nodup_accessors_iff, nodup_overloads_iff, apart_append_left]
  constructor
  · rintro ⟨⟨⟨⟨haccessors, hobject⟩, hoverloads, hmadeOver⟩, -, -, hoverOwn⟩, hmembers⟩
    refine ⟨haccessors, hobject, hoverloads, ?_, ?_⟩
    · rw [visible_append, apart_append_right]
      exact ⟨hmadeOver.symm, hoverOwn⟩
    · intro he method hm
      exact hmembers he method (List.mem_append_left _ (List.mem_append_right _ hm))
  · intro h
    have hothers := h.others
    rw [visible_append, apart_append_right] at hothers
    refine ⟨⟨⟨⟨h.accessors, h.objectProtocol⟩, h.overloads, hothers.1.symm⟩, hdeclared, hmade,
      hothers.2⟩, ?_⟩
    intro he method hm hmember
    exact h.enumMembers he method (enumMember_mem_overloads he (henum he) hm hmember) hmember

/-- The shown constructors of a class are distinct exactly if those that nothing compares are
apart; an enum shows none. -/
theorem shownConstructors_iff (index : ClassIndex) (rules : List CallRule)
    (hconstructors : (decl.constructors.map dialect.parameterTypes).Nodup) :
    (((Printer.standard dialect index protocol rules).shownConstructors decl).map
        dialect.parameterTypes).Nodup ↔
      (decl.isEnum = false → ConstructorsApart dialect decl) := by
  have hmade : ((Printer.standard dialect index protocol rules).made decl).constructors =
      implicitConstructors decl ++ decl.constructors.flatMap constructorOverloads :=
    constructors_capture protocol decl
  have hown : ∀ c ∈ decl.constructors,
      ((constructorOverloads c).map dialect.parameterTypes).Nodup :=
    fun c _ => nodup_constructorOverloads c
  unfold Printer.shownConstructors Printer.visibleConstructors
  rw [hmade]
  cases he : decl.isEnum with
  | true => simp
  | false =>
    rw [if_neg Bool.false_ne_true]
    by_cases hempty : decl.constructors = []
    · have himplicit : ((implicitConstructors decl).map dialect.parameterTypes).Nodup := by
        unfold implicitConstructors
        split <;> simp
      have hapart : ConstructorsApart dialect decl := by
        constructor
        · simp [hempty]
        · simp [hempty, Apart]
      simpa [hempty, hapart] using himplicit
    · have himplicit : implicitConstructors decl = [] := by simp [implicitConstructors, hempty]
      rw [himplicit, List.nil_append, nodup_map_append, nodup_map_flatMap]
      constructor
      · rintro ⟨⟨-, hoverloads⟩, -, hothers⟩ _
        exact ⟨hoverloads, hothers⟩
      · intro h
        exact ⟨⟨hown, (h rfl).overloads⟩, hconstructors, (h rfl).others⟩

/-- A class shows no member twice exactly if the members that nothing compares are apart. -/
theorem distinctMembers_iff (dialect : Dialect) (index : ClassIndex) (protocol : List MethodDecl)
    (rules : List CallRule) (decl : ClassDecl)
    (hprotocol : (protocol.map dialect.signature).Nodup)
    (hmethods : (decl.methods.map dialect.signature).Nodup)
    (hconstructors : (decl.constructors.map dialect.parameterTypes).Nodup)
    (henum : decl.isEnum = true → ∀ method ∈ decl.methods ++ protocol,
      dialect.signature method ∉ enumSignatures) :
    DistinctMembers (Printer.standard dialect index protocol rules) decl ↔
      MethodsApart dialect protocol decl ∧
        (decl.isEnum = false → ConstructorsApart dialect decl) := by
  have hshown := shownMethods_iff index rules hprotocol hmethods henum
  constructor
  · intro h
    exact ⟨hshown.mp ⟨h.methods, h.enumMembers⟩,
      (shownConstructors_iff index rules hconstructors).mp h.constructors⟩
  · rintro ⟨hapart, hdeclared⟩
    obtain ⟨hnodup, hmembers⟩ := hshown.mpr hapart
    exact ⟨hnodup, (shownConstructors_iff index rules hconstructors).mpr hdeclared, hmembers⟩

end

/-- A class with properties, defaults and the overloads that come from them, all of them apart. -/
def dial : ClassDecl :=
  { name := "geo.Dial"
    properties := [.ofName "angle" .double, .ofName "locked" .boolean]
    methods :=
      [(MethodDecl.ofName "turn").addParameter
        ((Parameter.ofName "steps" .int).withDefault (.constant (.int 1))),
        (MethodDecl.ofName "show").addParameter
          ((Parameter.ofName "large" .boolean).withDefault (.constant (.bool false)))]
    constructors :=
      [(ConstructorDecl.ofModifiers (.ofList [.publicAccess])).addParameter
        ((Parameter.ofName "size" .int).withDefault (.constant (.int 1)))] }

theorem dial_distinct :
    DistinctMembers (Printer.standard {} ∅ [.ofName "reset"] CallRule.usual) dial := by
  refine (distinctMembers_iff {} ∅ [.ofName "reset"] CallRule.usual dial ?_ ?_ ?_ ?_).mpr ⟨?_, ?_⟩
  · decide
  · decide
  · decide
  · decide
  · constructor <;> decide +kernel
  · intro _
    exact ⟨by decide, by decide⟩

/-- A class whose overloads are the other members that it declares: the method and the constructor
with a default, and the two that take nothing. -/
def gauge : ClassDecl :=
  { name := "geo.Gauge"
    methods :=
      [(MethodDecl.ofName "scale").addParameter
        ((Parameter.ofName "factor" .int).withDefault (.constant (.int 1))), .ofName "scale"]
    constructors :=
      [(ConstructorDecl.ofModifiers (.ofList [.publicAccess])).addParameter
        ((Parameter.ofName "size" .int).withDefault (.constant (.int 1))),
        .ofModifiers (.ofList [.publicAccess])] }

theorem gauge_not_distinct :
    ((gauge.methods.map (Dialect.signature {})).Nodup ∧
      (gauge.constructors.map (Dialect.parameterTypes {})).Nodup ∧ gauge.properties = [] ∧
      gauge.isEnum = false) ∧
      ¬ DistinctMembers (Printer.standard {} ∅ [] CallRule.usual) gauge := by
  refine ⟨by decide, ?_⟩
  intro h
  exact absurd h.methods (by decide +kernel)

/-- Without defaults, members are shown once if the names of properties stay different when they are
capitalized and the object protocol has no accessors and helpers of the class. -/
theorem distinctMembers_of_noDefaults {dialect : Dialect} {index : ClassIndex}
    {protocol : List MethodDecl} {rules : List CallRule} {decl : ClassDecl}
    (hprotocol : (protocol.map dialect.signature).Nodup)
    (hmethods : (decl.methods.map dialect.signature).Nodup)
    (hconstructors : (decl.constructors.map dialect.parameterTypes).Nodup)
    (henum : decl.isEnum = true → ∀ method ∈ decl.methods ++ protocol,
      dialect.signature method ∉ enumSignatures)
    (hplain : ∀ method ∈ decl.methods, method.hasDefaults = false)
    (hclear : ∀ constructor ∈ decl.constructors, constructor.hasDefaults = false)
    (hproperties : (decl.properties.map fun p => Text.capitalize p.name).Nodup)
    (hobject : Apart dialect.signature protocol (accessors decl ++ enumHelpers decl)) :
    DistinctMembers (Printer.standard dialect index protocol rules) decl := by
  have hmethodOverloads : decl.methods.flatMap methodOverloads = [] := by
    rw [List.flatMap_eq_nil_iff]
    intro method hm
    rw [methodOverloads, overloads_eq_nil (hplain method hm), List.map_nil]
  have hconstructorOverloads : decl.constructors.flatMap constructorOverloads = [] := by
    rw [List.flatMap_eq_nil_iff]
    intro constructor hc
    rw [constructorOverloads, overloads_eq_nil (hclear constructor hc), List.map_nil]
  have hmethodsApart : MethodsApart dialect protocol decl := by
    refine ⟨?_, ?_, ?_, ?_, ?_⟩
    · refine (List.pairwise_map.mp hproperties).imp fun hne => ?_
      exact (apart_accessorsOf hne).mono
        (List.Subset.trans (visible_subset _ _) List.filter_sublist.subset)
        (List.Subset.trans (visible_subset _ _) List.filter_sublist.subset)
    · exact hobject.mono (List.Subset.trans (visible_subset _ _)
        (protocolMethods_sublist protocol decl).subset) (visible_subset _ _)
    · rw [← nodup_overloads_iff, hmethodOverloads]
      exact List.nodup_nil
    · rw [hmethodOverloads]
      exact apart_nil_left
    · rw [hmethodOverloads]
      exact fun _ m hm => absurd hm List.not_mem_nil
  have hconstructorsApart : ConstructorsApart dialect decl := by
    constructor
    · have hnodup : ((decl.constructors.flatMap constructorOverloads).map
          dialect.parameterTypes).Nodup := by
        rw [hconstructorOverloads]
        exact List.nodup_nil
      exact (nodup_map_flatMap.mp hnodup).2
    · rw [hconstructorOverloads]
      exact apart_nil_left
  obtain ⟨hnodup, hmembers⟩ :=
    (shownMethods_iff index rules hprotocol hmethods henum).mpr hmethodsApart
  exact ⟨hnodup, (shownConstructors_iff index rules hconstructors).mpr fun _ => hconstructorsApart,
    hmembers⟩

end JavaStubs.Stubs
