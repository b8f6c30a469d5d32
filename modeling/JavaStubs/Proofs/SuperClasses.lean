import JavaStubs.Proofs.IndexLookup
import JavaStubs.Proofs.ShownTree

/-!
# What a stub depends on

A printer asks the index of classes about one name for every class that it prints, that of the
immediate super class. Two indexes that know the same of these names give the same stub, whatever
else they know: the rest of a model has no say in it.
-/
namespace JavaStubs.Stubs

/-- A call depends on the index only by what it knows of the super class. -/
theorem CallSite.shownCall_index {site : CallSite} {index : ClassIndex}
    (h : index.get? site.superName = site.index.get? site.superName) (rules : List CallRule) :
    { site with index }.shownCall rules = site.shownCall rules := by
  have hknown : { site with index }.superClass? = site.superClass? := h
  have hrule : ∀ rule, { site with index }.shownBy? rule = site.shownBy? rule := by
    intro rule
    cases rule with
    | accessibleSuper => simp only [shownBy?, accessibleSuper?, hknown]
    | implicitSource => simp only [shownBy?, hknown]
    | ownArguments => rfl
  rw [shownCall, shownCall, funext hrule]
  rfl

namespace Printer

variable {p : Printer} {index : ClassIndex} {rules : List CallRule}

theorem shownConstructor_index {decl : ClassDecl}
    (h : index.get? decl.superName = p.index.get? decl.superName) (constructor : ConstructorDecl) :
    { p with index }.shownConstructor rules decl constructor =
      p.shownConstructor rules decl constructor := by
  have hcall : ∀ call,
      CallSite.shownCall ⟨decl, constructor, call, index, p.dialect⟩ rules =
        CallSite.shownCall ⟨decl, constructor, call, p.index, p.dialect⟩ rules :=
    fun call =>
      @CallSite.shownCall_index ⟨decl, constructor, call, p.index, p.dialect⟩ index h rules
  simp only [shownConstructor, hcall]

theorem shown_index_of_inner {decl : ClassDecl}
    (h : decl.isAnonymous = false → index.get? decl.superName = p.index.get? decl.superName)
    (hinner : { p with index }.shownAll rules decl.inner = p.shownAll rules decl.inner) :
    { p with index }.shown rules decl = p.shown rules decl := by
  cases hd : decl.isAnonymous with
  | true => rw [shown_anonymous _ rules hd, shown_anonymous _ rules hd]
  | false =>
    have hconstructors :
        { p with index }.shownConstructor rules decl = p.shownConstructor rules decl :=
      funext (shownConstructor_index (h hd))
    rw [shown_named _ rules hd, shown_named _ rules hd, hinner, hconstructors]
    rfl

mutual

/-- What a stub shows depends on the index only by what it knows of the super classes in the tree:
induction over the tree, since every nested class asks for a super class of its own. -/
theorem shown_index : (decl : ClassDecl) →
    (∀ d ∈ decl.declarations, d.isAnonymous = false →
      index.get? d.superName = p.index.get? d.superName) →
    { p with index }.shown rules decl = p.shown rules decl
  | { inner, .. }, h => by
    rw [ClassDecl.declarations, List.forall_mem_cons] at h
    exact shown_index_of_inner h.1 (shownAll_index inner h.2)

theorem shownAll_index : (decls : List ClassDecl) →
    (∀ d ∈ ClassDecl.listDeclarations decls, d.isAnonymous = false →
      index.get? d.superName = p.index.get? d.superName) →
    { p with index }.shownAll rules decls = p.shownAll rules decls
  | [], _ => by rw [shownAll, shownAll]
  | decl :: rest, h => by
    rw [ClassDecl.listDeclarations, List.forall_mem_append] at h
    rw [shownAll, shownAll, shown_index decl h.1, shownAll_index rest h.2]

end

end Printer

/-- Let two indexes know the same of the super class of every declaration in a tree that is not
anonymous. Then the tree is printed in the same way with both, wherever it is printed. -/
theorem printInto_of_same_superClasses (dialect : Source.Dialect) (protocol : List MethodDecl)
    (rules : List CallRule) (first second : ClassIndex) (decl : ClassDecl)
    (h : ∀ d ∈ decl.declarations, d.isAnonymous = false →
      first.get? d.superName = second.get? d.superName) (out : Layout) :
    (Printer.standard dialect first protocol rules).printInto decl out =
      (Printer.standard dialect second protocol rules).printInto decl out := by
  have hshown : (Printer.standard dialect first protocol rules).shown rules decl =
      (Printer.standard dialect second protocol rules).shown rules decl :=
    Printer.shown_index (p := .standard dialect second protocol rules) decl h
  rw [Printer.printInto_eq (conservative_standard protocol) (Printer.follows_standard ..),
    Printer.printInto_eq (conservative_standard protocol) (Printer.follows_standard ..), hshown]
  rfl

/-- A class that extends a known one, with a nested class and an anonymous one. -/
def badge : ClassDecl :=
  { name := "geo.Badge"
    superClass := some (.ofName "geo.Shape")
    inner :=
      [{ name := "geo.Badge$Pin", nesting := .member },
       { name := "geo.Badge$1", nesting := .anonymous, superClass := some (.ofName "geo.Frame") }] }

/-- What is known of the class that it extends. -/
def shapeOnly : ClassIndex :=
  ClassIndex.empty.put "geo.Shape"
    ⟨.source, [{ modifiers := .ofList [.protectedAccess], parameters := [.ofName "name" .string] }]⟩

/-- What is known of one more class, which only the anonymous class extends. -/
def shapeAndFrame : ClassIndex :=
  shapeOnly.put "geo.Frame" ⟨.external, [{ modifiers := .ofList [.publicAccess] }]⟩

theorem badge_printed_alike :
    (∀ d ∈ badge.declarations, d.isAnonymous = false →
      shapeOnly.get? d.superName = shapeAndFrame.get? d.superName) ∧
    shapeOnly.get? "geo.Frame" ≠ shapeAndFrame.get? "geo.Frame" ∧
    (Printer.standard {} shapeOnly [.ofName "paint"] CallRule.usual).printInto badge .empty =
      (Printer.standard {} shapeAndFrame [.ofName "paint"] CallRule.usual).printInto badge
        .empty := by
  have h : ∀ d ∈ badge.declarations, d.isAnonymous = false →
      shapeOnly.get? d.superName = shapeAndFrame.get? d.superName := by
    have hdeclarations : badge.declarations = badge :: badge.inner := rfl
    rw [hdeclarations, badge]
    simp only [List.forall_mem_cons, List.not_mem_nil, false_implies, implies_true, and_true]
    refine ⟨fun _ => rfl, fun _ => rfl, ?_⟩
    rintro ⟨⟩
  exact ⟨h, nofun, printInto_of_same_superClasses {} [.ofName "paint"] CallRule.usual shapeOnly
    shapeAndFrame badge h .empty⟩

end JavaStubs.Stubs
