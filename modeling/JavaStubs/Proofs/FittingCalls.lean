import JavaStubs.Proofs.IndexLookup
import JavaStubs.Proofs.MadeMembers
import JavaStubs.Proofs.Printing

/-!
# Delegation calls fit the stub of the super class

Two stubs of one model are printed apart from each other, and still the calls in the constructors of
the one meet constructors that the other shows. The index has the super class as it is declared, so
the rules choose its first accessible constructor or, if it declares none, the implicit one; and its
own stub shows the constructors that it declares or else the implicit one.
-/
namespace JavaStubs.Stubs

open Normalization (constructors_capture implicitConstructor implicitConstructors)
open Source (Dialect)

namespace CallSite

variable {site : CallSite} {constructors : List ConstructorDecl}

/-- The call that the usual rules choose when the super class is a source class that can be
extended. -/
theorem chosenCall_usual (hknown : site.superClass? = some ⟨.source, constructors⟩)
    (hcallable : constructors = [] ∨ ∃ c ∈ constructors, c.isAccessible = true) :
    ∃ target, (target ∈ constructors ∨ (constructors = [] ∧ target = implicitConstructor)) ∧
      site.chosenCall CallStrategy.usual =
        callText .superClass (defaultValues site.dialect target.parameters) := by
  have haccessible : site.accessibleSuper? = constructors.find? ConstructorDecl.isAccessible := by
    rw [accessibleSuper?, hknown]
    rfl
  rcases hcallable with rfl | ⟨c, hc, haccess⟩
  · -- Nothing is accessible, so the second rule decides.
    refine ⟨implicitConstructor, .inr ⟨rfl, rfl⟩, ?_⟩
    have hfirst : site.callOf? .accessibleSuper = none := by
      rw [callOf?, haccessible]
      rfl
    have hsecond : site.callOf? .implicitSource = some (callText .superClass []) := by
      rw [callOf?, hknown]
    simp only [CallStrategy.usual, chosenCall_rules, CallRule.usual, List.findSome?_cons, hfirst,
      hsecond]
    rfl
  · obtain ⟨target, htarget⟩ := Option.isSome_iff_exists.mp
      (List.find?_isSome.mpr ⟨c, hc, haccess⟩)
    refine ⟨target, .inl (List.mem_of_find?_eq_some htarget), ?_⟩
    have hfirst : site.callOf? .accessibleSuper =
        some (callText .superClass (defaultValues site.dialect target.parameters)) := by
      rw [callOf?, haccessible, htarget]
      rfl
    simp only [CallStrategy.usual, chosenCall_rules, CallRule.usual, List.findSome?_cons, hfirst]
    rfl

end CallSite

namespace Printer

variable {dialect : Dialect} {index : ClassIndex} {protocol : List MethodDecl}
  {rules : List CallRule} {decl : ClassDecl}

/-- A class shows the constructors that it declares. -/
theorem mem_shownConstructors (p : Printer) (hkind : decl.kind = .ordinary)
    {constructor : ConstructorDecl} (h : constructor ∈ decl.constructors) :
    constructor ∈ p.shownConstructors decl := by
  have henum : decl.isEnum = false := by simp [ClassDecl.isEnum, hkind]
  rw [shownConstructors, visibleConstructors, henum]
  exact List.mem_append_right _ h

/-- A class that declares no constructor shows the implicit one. -/
theorem implicitConstructor_mem_shown (hkind : decl.kind = .ordinary)
    (h : decl.constructors = []) :
    implicitConstructor ∈ (standard dialect index protocol rules).shownConstructors decl := by
  have henum : decl.isEnum = false := by simp [ClassDecl.isEnum, hkind]
  have hmade : ((standard dialect index protocol rules).made decl).constructors =
      implicitConstructors decl ++ decl.constructors.flatMap Normalization.constructorOverloads :=
    constructors_capture protocol decl
  rw [shownConstructors, visibleConstructors, henum, hmade]
  simp [implicitConstructors, hkind, h]

/-- The fragment of every shown constructor stands in the block of its class. -/
theorem constructor_mem_body (p : Printer) {constructor : ConstructorDecl}
    (h : constructor ∈ p.shownConstructors decl) :
    (p.constructorText decl constructor).fragment ∈ p.body decl := by
  have hmap := List.mem_map_of_mem (f := fun c => (p.constructorText decl c).fragment) h
  simp only [body, ownMembers, List.mem_append]
  exact .inl (.inl (.inr hmap))

end Printer

/-- Stubs of one model fit together: whatever call stands in a constructor that a class shows, the
stub of its super class shows a constructor with as many parameters, and the call passes each of
them the default value of its type. -/
theorem delegation_fits (dialect : Dialect) (protocol : List MethodDecl)
    (model : DeclarationModel) (derived base : ClassDecl)
    (hnames : (model.declarations.map ClassDecl.name).Nodup) (hbase : base ∈ model.declarations)
    (hderivedNamed : derived.isAnonymous = false) (hbaseNamed : base.isAnonymous = false)
    (hkind : base.kind = .ordinary)
    (hsuper : derived.superClass.map ClassType.name = some base.name)
    (hcallable : base.constructors = [] ∨ ∃ c ∈ base.constructors, c.isAccessible = true) :
    let p := Printer.standard dialect (.ofModel model) protocol CallRule.usual
    ∃ derivedBody baseBody,
      (p.print derived).1 = [.block (p.header derived).text derivedBody] ∧
      (p.print base).1 = [.block (p.header base).text baseBody] ∧
      ∀ constructor ∈ p.shownConstructors derived,
        (p.constructorText derived constructor).fragment ∈ derivedBody ∧
        ∀ call, (p.constructorText derived constructor).delegation = some call →
          ∃ target ∈ p.shownConstructors base,
            (p.constructorText base target).fragment ∈ baseBody ∧
            call = "super(" ++ Text.join ", " (target.parameters.map fun q =>
              dialect.defaultValue q.type) ++ ");" := by
  intro p
  have hconservative : Conservative p.transform := conservative_standard protocol
  refine ⟨p.body derived, p.body base, Printer.print_named hconservative hderivedNamed,
    Printer.print_named hconservative hbaseNamed, ?_⟩
  intro constructor hc
  refine ⟨p.constructor_mem_body hc, ?_⟩
  intro call hcall
  obtain ⟨own, -, rfl⟩ := Option.map_eq_some_iff.mp hcall
  have hname : derived.superName = base.name := by
    obtain ⟨type, htype, hname⟩ := Option.map_eq_some_iff.mp hsuper
    rw [ClassDecl.superName, htype]
    exact hname
  have hknown : CallSite.superClass? ⟨derived, constructor, own, p.index, p.dialect⟩ =
      some ⟨.source, base.constructors⟩ := by
    rw [CallSite.superClass?, CallSite.superName, hname]
    exact ClassIndex.get?_ofModel hnames hbase
  obtain ⟨target, hmem, htext⟩ := CallSite.chosenCall_usual hknown hcallable
  have hshown : target ∈ p.shownConstructors base := by
    rcases hmem with hmem | ⟨hempty, rfl⟩
    · exact p.mem_shownConstructors hkind hmem
    · exact Printer.implicitConstructor_mem_shown hkind hempty
  exact ⟨target, hshown, p.constructor_mem_body hshown, htext.trans (callText_superClass _)⟩

/-- A nested class whose first constructor is private. -/
def outline : ClassDecl :=
  { name := "geo.Shape$Outline"
    nesting := .member
    constructors :=
      [.ofModifiers (.ofList [.privateAccess]),
        (ConstructorDecl.ofModifiers (.ofList [.protectedAccess])).addParameter
          (.ofName "width" .int)] }

/-- A class that extends it, with a default and a call of its own. -/
def circle : ClassDecl :=
  { name := "geo.Circle"
    superClass := some (.ofName "geo.Shape$Outline")
    constructors :=
      [((ConstructorDecl.ofModifiers (.ofList [.publicAccess])).addParameter
        ((Parameter.ofName "radius" .int).withDefault (.constant (.int 1)))).delegating
          (.superCall [.constant .null, .constant .null])] }

/-- Both of them in one model, and an external class that has the name of the first. -/
def drawing : DeclarationModel :=
  { units := [{ classes := [circle] }, { classes := [{ name := "geo.Shape", inner := [outline] }] }]
    external := [{ name := "geo.Shape$Outline" }] }

theorem circle_fits_outline :
    let p := Printer.standard {} (.ofModel drawing) [] CallRule.usual
    ∃ circleBody outlineBody,
      (p.print circle).1 = [.block (p.header circle).text circleBody] ∧
      (p.print outline).1 = [.block (p.header outline).text outlineBody] ∧
      ∀ constructor ∈ p.shownConstructors circle,
        (p.constructorText circle constructor).fragment ∈ circleBody ∧
        ∀ call, (p.constructorText circle constructor).delegation = some call →
          ∃ target ∈ p.shownConstructors outline,
            (p.constructorText outline target).fragment ∈ outlineBody ∧
            call = "super(" ++ Text.join ", " (target.parameters.map fun q =>
              Dialect.defaultValue {} q.type) ++ ");" := by
  have hdeclarations : drawing.declarations =
      [circle, { name := "geo.Shape", inner := [outline] }, outline] := rfl
  refine delegation_fits {} [] drawing circle outline ?_ ?_ rfl rfl rfl rfl ?_
  · rw [hdeclarations]
    decide
  · rw [hdeclarations]
    simp
  · exact .inr ⟨_, List.mem_cons_of_mem _ List.mem_cons_self, by decide⟩

end JavaStubs.Stubs
