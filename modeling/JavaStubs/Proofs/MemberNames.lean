import JavaStubs.Proofs.Foreign
import JavaStubs.Proofs.MadeMembers
import JavaStubs.Proofs.Printing

/-!
# The names in shown members

A stub shows members that its class declares and members that are made for it. The names in the
second come from the first, from the class and from the object protocol, or are fixed words; so a
foreign character that is absent from those names is absent from the names of all shown members. The
name of an accessor is an exception, but only identifiers are shown.
-/
namespace JavaStubs

variable {c : Char}

/-- The character is absent from the names of a class, seen part by part; its nested classes do not
count. -/
structure AbsentIn (c : Char) (decl : ClassDecl) : Prop where
  name : c ∉ decl.name.toList
  superClass : ∀ type, decl.superClass = some type → Absent c type.names
  interfaces : Absent c (decl.interfaces.flatMap ClassType.names)
  generics : Absent c (Generic.listNames decl.generics)
  fields : ∀ field ∈ decl.fields, Absent c field.names
  properties : ∀ property ∈ decl.properties, Absent c property.names
  methods : ∀ method ∈ decl.methods, Absent c method.names
  constructors : ∀ constructor ∈ decl.constructors, Absent c constructor.names

theorem absentIn_of_absent {decl : ClassDecl} (h : Absent c decl.ownNames) : AbsentIn c decl := by
  rw [ClassDecl.ownNames, ← Generic.listNames_eq_flatMap] at h
  simp only [absent_cons, absent_append, absent_flatMap] at h
  obtain ⟨hname, ⟨⟨⟨⟨⟨hsuper, hinterfaces⟩, hgenerics⟩, hfields⟩, hproperties⟩, hmethods⟩,
    hconstructors⟩ := h
  exact ⟨hname, fun type ht => hsuper type (by simp [ht]), absent_flatMap.mpr hinterfaces,
    hgenerics, hfields, hproperties, hmethods, hconstructors⟩

namespace Normalization

theorem absent_overload {parameters kept : List Parameter}
    (h : Absent c (parameters.flatMap Parameter.names)) (hk : kept ∈ overloads parameters) :
    Absent c (kept.flatMap Parameter.names) := by
  rw [absent_flatMap] at h ⊢
  intro parameter hp
  obtain ⟨source, hs, rfl⟩ := List.mem_map.mp ((sublist_of_mem_overloads hk).subset hp)
  have hnames := h source hs
  simp only [Parameter.names, Parameter.withoutDefault, absent_cons, absent_append] at hnames ⊢
  exact ⟨hnames.1, hnames.2.1, by simp⟩

theorem absent_methodOverload {method overload : MethodDecl}
    (h : Absent c method.names) (ho : overload ∈ methodOverloads method) :
    Absent c overload.signatureNames := by
  obtain ⟨kept, hk, rfl⟩ := List.mem_map.mp ho
  simp only [MethodDecl.names, MethodDecl.signatureNames, absent_cons, absent_append] at h ⊢
  obtain ⟨-, ⟨⟨hresult, hparameters⟩, hgenerics⟩, hexceptions⟩ := h
  exact ⟨⟨⟨hresult, absent_overload hparameters hk⟩, hgenerics⟩, hexceptions⟩

theorem absent_delegationArgument {kept : List Parameter} {parameter : Parameter}
    (h : Absent c parameter.names) : Absent c (delegationArgument kept parameter).names := by
  simp only [Parameter.names, absent_cons, absent_append, absent_flatMap] at h
  obtain ⟨hname, htype, hdefault⟩ := h
  unfold delegationArgument
  split
  · rw [Expression.names, absent_cons]
    exact ⟨hname, htype⟩
  · cases hd : parameter.default with
    | none => exact htype
    | some value => exact hdefault value (by simp [hd])

theorem absent_constructorOverload {constructor overload : ConstructorDecl}
    (h : Absent c constructor.names) (ho : overload ∈ constructorOverloads constructor) :
    Absent c overload.names := by
  obtain ⟨kept, hk, rfl⟩ := List.mem_map.mp ho
  simp only [ConstructorDecl.names, absent_append] at h
  obtain ⟨⟨hparameters, hexceptions⟩, -⟩ := h
  have harguments : ∀ p ∈ constructor.parameters, Absent c (delegationArgument kept p).names :=
    fun p hp => absent_delegationArgument (absent_flatMap.mp hparameters p hp)
  simp only [ConstructorDecl.names, constructorOverload, absent_append, absent_flatMap]
  refine ⟨⟨absent_flatMap.mp (absent_overload hparameters hk), absent_flatMap.mp hexceptions⟩, ?_⟩
  simpa [DelegationCall.thisCall] using harguments

theorem absent_accessor (hc : Foreign c) {property : PropertyDecl} (h : Absent c property.names)
    {method : MethodDecl} (hm : method ∈ accessorsOf property) :
    Absent c method.signatureNames := by
  rw [PropertyDecl.names, absent_cons] at h
  have hgetter : Absent c (getter property).signatureNames := by
    simpa [MethodDecl.signatureNames, getter] using h.2
  have hsetter : Absent c (setter property).signatureNames := by
    simp only [MethodDecl.signatureNames, setter, TypeRef.names_void, List.flatMap_cons,
      List.flatMap_nil, List.append_nil, List.nil_append, Parameter.names_ofName, absent_cons]
    exact ⟨hc.not_mem (by decide), h.2⟩
  unfold accessorsOf at hm
  split at hm
  · obtain rfl := List.mem_singleton.mp hm
    exact hgetter
  · rcases List.mem_cons.mp hm with rfl | hm
    · exact hgetter
    · obtain rfl := List.mem_singleton.mp hm
      exact hsetter

theorem absent_helper (hc : Foreign c) {name : String} (h : c ∉ name.toList) {method : MethodDecl}
    (hm : method ∈ helpersOf name) : Absent c method.signatureNames := by
  have hname : c ∉ "name".toList := hc.not_mem (by decide)
  have hstring : c ∉ Names.string.toList := hc.not_mem (by decide)
  simp only [helpersOf, List.mem_cons, List.not_mem_nil, or_false] at hm
  rcases hm with rfl | rfl | rfl | rfl <;>
    simp only [MethodDecl.signatureNames, TypeRef.names, TypeRef.names_ofName, TypeRef.names_string,
      Parameter.names_ofName, List.flatMap_cons, List.flatMap_nil, List.append_nil, absent_append,
      absent_cons]
  · exact ⟨h, absent_nil⟩
  · exact ⟨⟨h, absent_nil⟩, hname, hstring, absent_nil⟩
  · exact ⟨h, absent_nil⟩
  · exact ⟨h, absent_nil⟩

/-- No method that is made for a class has the character in its signature. -/
theorem absent_madeMethod (hc : Foreign c) {protocol : List MethodDecl} {decl : ClassDecl}
    (h : AbsentIn c decl) (hp : ∀ m ∈ protocol, Absent c m.names) {method : MethodDecl}
    (hm : method ∈ (capture (Transform.standard protocol) decl).1.methods) :
    Absent c method.signatureNames := by
  rw [methods_capture] at hm
  simp only [List.mem_append] at hm
  rcases hm with ((hm | hm) | hm) | hm
  · obtain ⟨property, hproperty, hm⟩ := List.mem_flatMap.mp (List.mem_filter.mp hm |>.1)
    exact absent_accessor hc (h.properties property hproperty) hm
  · exact absent_helper hc h.name ((enumHelpers_sublist decl).subset hm)
  · exact (absent_cons.mp (hp method ((protocolMethods_sublist protocol decl).subset hm))).2
  · obtain ⟨source, hs, hm⟩ := List.mem_flatMap.mp hm
    exact absent_methodOverload (h.methods source hs) hm

/-- No constructor that is made for a class has the character in its names. -/
theorem absent_madeConstructor {protocol : List MethodDecl} {decl : ClassDecl}
    (h : AbsentIn c decl) {constructor : ConstructorDecl}
    (hm : constructor ∈ (capture (Transform.standard protocol) decl).1.constructors) :
    Absent c constructor.names := by
  rw [constructors_capture, List.mem_append] at hm
  rcases hm with hm | hm
  · unfold implicitConstructors at hm
    split at hm
    · obtain rfl := List.mem_singleton.mp hm
      simp [implicitConstructor, ConstructorDecl.names, DelegationCall.superCall]
    · simp at hm
  · obtain ⟨source, hs, hm⟩ := List.mem_flatMap.mp hm
    exact absent_constructorOverload (h.constructors source hs) hm

end Normalization

namespace Stubs.Printer

open Normalization (absent_madeMethod absent_madeConstructor)

variable {p : Printer} {protocol : List MethodDecl} {decl : ClassDecl}

theorem absent_shownMethod (ht : p.transform = .standard protocol) (hc : Foreign c)
    (h : AbsentIn c decl) (hp : ∀ m ∈ protocol, Absent c m.names) {method : MethodDecl}
    (hm : method ∈ p.shownMethods decl) : Absent c method.names := by
  obtain ⟨hm, hshown⟩ := List.mem_filter.mp hm
  simp only [isPrintable, Bool.and_eq_true] at hshown
  rw [MethodDecl.names, absent_cons]
  refine ⟨hc.not_mem_of_isIdentifier hshown.1.2, ?_⟩
  rcases List.mem_append.mp hm with hm | hm
  · rw [made, ht] at hm
    exact absent_madeMethod hc h hp hm
  · exact (absent_cons.mp (h.methods method hm)).2

theorem absent_shownConstructor (ht : p.transform = .standard protocol)
    (h : AbsentIn c decl) {constructor : ConstructorDecl}
    (hm : constructor ∈ p.shownConstructors decl) : Absent c constructor.names := by
  unfold shownConstructors visibleConstructors at hm
  split at hm
  · simp at hm
  · rcases List.mem_append.mp hm with hm | hm
    · rw [made, ht] at hm
      exact absent_madeConstructor h hm
    · exact h.constructors constructor hm

end Stubs.Printer

end JavaStubs
