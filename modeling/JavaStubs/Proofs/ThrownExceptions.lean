import JavaStubs.Proofs.FittingCalls
import JavaStubs.Proofs.ShownCalls

/-!
# Exceptions of called constructors

A constructor has to list what the constructor throws that it calls first. In a stub the throws
clause comes from the source: from the constructor itself or, for an overload, from the constructor
that it is an overload of; the implicit constructor has none. The call is chosen afterwards and may
mean a constructor that the source does not call. So the clause is complete exactly if the source
happens to list what the chosen constructor throws.
-/
namespace JavaStubs.Stubs

open Normalization

namespace CallSite

variable (site other : CallSite)

theorem accessibleSuper?_congr (hdecl : site.decl = other.decl)
    (hindex : site.index = other.index) : site.accessibleSuper? = other.accessibleSuper? := by
  simp only [accessibleSuper?, superClass?, superName, hdecl, hindex]

/-- Whether a rule applies depends on the class and on what is known of its super class. -/
theorem isSome_shownBy?_congr (hdecl : site.decl = other.decl) (hindex : site.index = other.index)
    (rule : CallRule) : (site.shownBy? rule).isSome = (other.shownBy? rule).isSome := by
  have hsuper : site.superClass? = other.superClass? := by
    simp only [superClass?, superName, hdecl, hindex]
  cases rule with
  | accessibleSuper =>
    simp only [shownBy?, Option.isSome_map, accessibleSuper?_congr site other hdecl hindex]
  | implicitSource =>
    simp only [shownBy?, hsuper]
  | ownArguments => rfl

/-- All calls in one class are chosen for the same constructor. -/
theorem borrowed?_congr (hdecl : site.decl = other.decl) (hindex : site.index = other.index)
    (rules : List CallRule) : site.borrowed? rules = other.borrowed? rules := by
  simp only [borrowed?, isSome_shownBy?_congr site other hdecl hindex,
    accessibleSuper?_congr site other hdecl hindex]

end CallSite

namespace Printer

variable {dialect : Source.Dialect} {index : ClassIndex} {protocol : List MethodDecl}
  {rules : List CallRule} {decl : ClassDecl}

/-- The constructor of its super class that the calls in a class are chosen for by those rules; none
if they are the source's own calls or mean a constructor that nothing declares. -/
def lender? (p : Printer) (rules : List CallRule) (decl : ClassDecl) : Option ConstructorDecl :=
  CallSite.borrowed? ⟨decl, {}, .superCall [], p.index, p.dialect⟩ rules

theorem borrowed?_eq_lender? (p : Printer) (rules : List CallRule) (decl : ClassDecl)
    (constructor : ConstructorDecl) (call : DelegationCall) :
    CallSite.borrowed? ⟨decl, constructor, call, p.index, p.dialect⟩ rules =
      p.lender? rules decl :=
  CallSite.borrowed?_congr ⟨decl, constructor, call, p.index, p.dialect⟩
    ⟨decl, {}, .superCall [], p.index, p.dialect⟩ rfl rfl rules

/-- A call that is chosen for a constructor is shown as a call of it. -/
theorem delegation_of_lender? {p : Printer} (hrules : p.Follows rules)
    {constructor target : ConstructorDecl} {call : DelegationCall}
    (hcall : constructor.firstCall = some call) (htarget : p.lender? rules decl = some target) :
    (p.constructorText decl constructor).delegation =
      some (callText .superClass (CallSite.defaultValues p.dialect target.parameters)) := by
  let site : CallSite := ⟨decl, constructor, call, p.index, p.dialect⟩
  have hborrowed : site.borrowed? rules = some target :=
    (p.borrowed?_eq_lender? rules decl constructor call).trans htarget
  have hshown : site.shownCall rules = .superCall target.parameters := by
    rcases site.shownCall_cases rules with ⟨found, hfound, hshown⟩ | ⟨hnone, -⟩
    · obtain rfl : found = target := Option.some.inj (hfound.symm.trans hborrowed)
      exact hshown
    · simp [hborrowed] at hnone
  rw [constructorText, hcall, Option.map_some, hrules, site.chosenCall_eq_text, hshown,
    ShownCall.text_superCall]

/-- Every exception of one constructor is listed, as it is written, in the throws clause of
another. -/
def Lists (p : Printer) (constructor thrower : ConstructorDecl) : Prop :=
  ∀ exception ∈ thrower.exceptions,
    p.dialect.classText exception ∈ constructor.exceptions.map p.dialect.classText

/-- Every call in a class that those rules choose for a constructor of the super class stands in a
constructor whose throws clause lists what that one throws. -/
def ListsThrown (p : Printer) (rules : List CallRule) (decl : ClassDecl) : Prop :=
  ∀ constructor ∈ p.shownConstructors decl, ∀ call, constructor.firstCall = some call →
    ∀ target, CallSite.borrowed? ⟨decl, constructor, call, p.index, p.dialect⟩ rules =
        some target →
      ∀ exception ∈ target.exceptions,
        p.dialect.classText exception ∈ (p.constructorText decl constructor).exceptions

/-- The constructors in the stub of a class: the implicit one or overloads and what the class
declares. -/
theorem mem_shownConstructors_standard {constructor : ConstructorDecl} :
    constructor ∈ (standard dialect index protocol rules).shownConstructors decl ↔
      decl.isEnum = false ∧ (constructor ∈ implicitConstructors decl ∨
        (∃ full ∈ decl.constructors, constructor ∈ constructorOverloads full) ∨
        constructor ∈ decl.constructors) := by
  have hmade : ((standard dialect index protocol rules).made decl).constructors =
      implicitConstructors decl ++ decl.constructors.flatMap constructorOverloads :=
    constructors_capture protocol decl
  rw [shownConstructors, visibleConstructors, hmade]
  cases decl.isEnum with
  | true => simp
  | false => simp

theorem exceptions_of_mem_constructorOverloads {overload full : ConstructorDecl}
    (h : overload ∈ constructorOverloads full) : overload.exceptions = full.exceptions := by
  obtain ⟨kept, -, rfl⟩ := List.mem_map.mp h
  rfl

/-- A constructor with defaults has an overload, whose first statement is a call. -/
theorem exists_overload_of_hasDefaults {full : ConstructorDecl} (h : full.hasDefaults = true) :
    ∃ overload ∈ constructorOverloads full, overload.firstCall.isSome = true := by
  have hcount : 0 < defaultedCount full.parameters :=
    List.countP_pos_iff.mpr (List.any_eq_true.mp h)
  have hne : overloads full.parameters ≠ [] := by
    rw [overloads, ne_eq, List.map_eq_nil_iff, List.reverse_eq_nil_iff, List.range_eq_nil]
    omega
  obtain ⟨kept, hkept⟩ := List.exists_mem_of_ne_nil _ hne
  exact ⟨_, List.mem_map_of_mem hkept, rfl⟩

theorem hasDefaults_of_mem_constructorOverloads {overload full : ConstructorDecl}
    (h : overload ∈ constructorOverloads full) : full.hasDefaults = true := by
  cases hd : full.hasDefaults with
  | true => rfl
  | false =>
    rw [constructorOverloads, overloads_eq_nil hd] at h
    exact absurd h List.not_mem_nil

/-- What is in the throws clauses of a class, said of its declaration. -/
theorem listsThrown_iff_lists :
    let p := standard dialect index protocol rules
    p.ListsThrown rules decl ↔ (decl.isEnum = false → ∀ target, p.lender? rules decl = some target →
      (decl.kind = .ordinary → decl.constructors = [] → target.exceptions = []) ∧
        ∀ constructor ∈ decl.constructors,
          constructor.firstCall.isSome = true ∨ constructor.hasDefaults = true →
          p.Lists constructor target) := by
  intro p
  constructor
  · intro h henum target htarget
    have hlists : ∀ constructor ∈ p.shownConstructors decl, constructor.firstCall.isSome = true →
        p.Lists constructor target := by
      intro constructor hc hcall
      obtain ⟨call, hcall⟩ := Option.isSome_iff_exists.mp hcall
      exact h constructor hc call hcall target
        ((p.borrowed?_eq_lender? rules decl constructor call).trans htarget)
    refine ⟨fun hkind hnone => ?_, fun constructor hc => ?_⟩
    · have himplicit := hlists implicitConstructor (implicitConstructor_mem_shown hkind hnone) rfl
      refine List.eq_nil_iff_forall_not_mem.mpr fun exception he => ?_
      exact List.not_mem_nil (himplicit exception he)
    · rintro (hcall | hdefaults)
      · exact hlists constructor
          (mem_shownConstructors_standard.mpr ⟨henum, .inr (.inr hc)⟩) hcall
      · obtain ⟨overload, hoverload, hcall⟩ := exists_overload_of_hasDefaults hdefaults
        have hover := hlists overload
          (mem_shownConstructors_standard.mpr ⟨henum, .inr (.inl ⟨constructor, hc, hoverload⟩)⟩)
          hcall
        rwa [Lists, exceptions_of_mem_constructorOverloads hoverload] at hover
  · intro h constructor hc call hcall target htarget
    obtain ⟨henum, hsource⟩ := mem_shownConstructors_standard.mp hc
    have hlender : p.lender? rules decl = some target :=
      (p.borrowed?_eq_lender? rules decl constructor call).symm.trans htarget
    obtain ⟨hnone, hlists⟩ := h henum target hlender
    change p.Lists constructor target
    rcases hsource with himplicit | ⟨full, hfull, hoverload⟩ | hdeclared
    · unfold implicitConstructors at himplicit
      split at himplicit
      · next hempty =>
        intro exception he
        rw [hnone hempty.1 (List.isEmpty_iff.mp hempty.2)] at he
        exact absurd he List.not_mem_nil
      · exact absurd himplicit List.not_mem_nil
    · rw [Lists, exceptions_of_mem_constructorOverloads hoverload]
      exact hlists full hfull (.inr (hasDefaults_of_mem_constructorOverloads hoverload))
    · exact hlists constructor hdeclared (.inl (Option.isSome_iff_exists.mpr ⟨call, hcall⟩))

end Printer

/-- What the throws clauses in a class's block are worth. A call that is chosen for a constructor of
the super class is printed as a call of it. The throws clauses list what that constructor throws if
and only if it throws nothing where a class declares no constructor, and else the declared
constructors list it that have a call or an overload. -/
theorem listsThrown_iff (dialect : Source.Dialect) (index : ClassIndex)
    (protocol : List MethodDecl) (rules : List CallRule) (decl : ClassDecl) :
    let p := Printer.standard dialect index protocol rules
    (decl.isAnonymous = false → (p.print decl).1 = [.block (p.header decl).text (p.body decl)] ∧
      ∀ constructor ∈ p.shownConstructors decl,
        (p.constructorText decl constructor).fragment ∈ p.body decl) ∧
    (∀ constructor ∈ p.shownConstructors decl, ∀ call, constructor.firstCall = some call →
      ∀ target, p.lender? rules decl = some target →
        (p.constructorText decl constructor).delegation =
          some (callText .superClass (CallSite.defaultValues dialect target.parameters))) ∧
    (p.ListsThrown rules decl ↔
      (decl.isEnum = false → ∀ target, p.lender? rules decl = some target →
        (decl.kind = .ordinary → decl.constructors = [] → target.exceptions = []) ∧
          ∀ constructor ∈ decl.constructors,
            constructor.firstCall.isSome = true ∨ constructor.hasDefaults = true →
            p.Lists constructor target)) := by
  intro p
  refine ⟨fun hd => ⟨?_, fun _ hc => p.constructor_mem_body hc⟩, ?_,
    Printer.listsThrown_iff_lists⟩
  · exact Printer.print_named (conservative_standard protocol) hd
  · intro constructor _ call hcall target htarget
    exact Printer.delegation_of_lender? (Printer.follows_standard ..) hcall htarget

/-- A class with a constructor that throws, and after it one that does not. -/
def reader : ClassDecl :=
  { name := "geo.Reader"
    constructors :=
      [((ConstructorDecl.ofModifiers (.ofList [.publicAccess])).addParameter
        (.ofName "path" .string)).addException (.ofName "java.io.IOException"),
        .ofModifiers (.ofList [.publicAccess])] }

/-- A class that extends it, calls the constructor that does not throw and so lists nothing. -/
def scanner : ClassDecl :=
  { name := "geo.Scanner"
    superClass := some (.ofName "geo.Reader")
    constructors :=
      [(ConstructorDecl.ofModifiers (.ofList [.publicAccess])).delegating (.superCall [])] }

/-- A class that extends it and lists the exception. -/
def lexer : ClassDecl :=
  { name := "geo.Lexer"
    superClass := some (.ofName "geo.Reader")
    constructors :=
      [(((ConstructorDecl.ofModifiers (.ofList [.publicAccess])).addParameter
        ((Parameter.ofName "strict" .boolean).withDefault (.constant (.bool true)))).addException
          (.ofName "java.io.IOException")).delegating (.superCall [])] }

/-- These classes in one model. -/
def parsing : DeclarationModel :=
  { units := [{ classes := [reader, scanner, lexer] }] }

theorem lexer_lists_thrown :
    let p := Printer.standard {} (.ofModel parsing) [] CallRule.usual
    p.lender? CallRule.usual lexer = reader.constructors.head? ∧
      p.ListsThrown CallRule.usual lexer := by
  intro p
  have hlender : p.lender? CallRule.usual lexer = reader.constructors.head? := rfl
  obtain ⟨-, -, hiff⟩ := listsThrown_iff {} (.ofModel parsing) [] CallRule.usual lexer
  refine ⟨hlender, hiff.mpr fun _ target htarget => ⟨fun _ hnone => ?_, fun constructor hc _ => ?_⟩⟩
  · simp [lexer] at hnone
  · obtain rfl : reader.constructors.head (by decide) = target :=
      Option.some.inj (hlender.symm.trans htarget)
    obtain rfl := List.mem_singleton.mp hc
    intro exception he
    obtain rfl := List.mem_singleton.mp he
    exact List.mem_singleton.mpr rfl

/-- The call is chosen for the constructor that throws, although the source calls the other one. -/
theorem scanner_lists_nothing :
    let p := Printer.standard {} (.ofModel parsing) [] CallRule.usual
    p.lender? CallRule.usual scanner = reader.constructors.head? ∧
      ¬ p.ListsThrown CallRule.usual scanner ∧
      ∀ constructor ∈ p.shownConstructors scanner,
        (p.constructorText scanner constructor).exceptions = [] ∧
          (p.constructorText scanner constructor).delegation =
            some "super((java.lang.String)null);" := by
  intro p
  have hlender : p.lender? CallRule.usual scanner = reader.constructors.head? := rfl
  have hshown : p.shownConstructors scanner = scanner.constructors := rfl
  refine ⟨hlender, ?_, ?_⟩
  · intro h
    have hmem : scanner.constructors.head (by decide) ∈ p.shownConstructors scanner :=
      List.mem_cons_self
    have hlisted := h _ hmem (.superCall []) rfl _
      ((p.borrowed?_eq_lender? CallRule.usual scanner _ _).trans hlender) _ List.mem_cons_self
    exact absurd hlisted List.not_mem_nil
  · intro constructor hc
    rw [hshown] at hc
    obtain rfl := List.mem_singleton.mp hc
    refine ⟨rfl, (Printer.delegation_of_lender? (Printer.follows_standard ..) rfl hlender).trans ?_⟩
    have hvalues : CallSite.defaultValues {} [.ofName "path" .string] =
        ["(java.lang.String)null"] := congrArg (· :: []) (Source.Dialect.defaultValue_string {})
    exact congrArg (fun values => some (callText .superClass values)) hvalues

end JavaStubs.Stubs
