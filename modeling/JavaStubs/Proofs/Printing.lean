import JavaStubs.Stubs.Printer

/-!
# What a declaration is printed as

While stubs are printed, a normalization may only make members. One that keeps to this gives every
declaration tree back as it was, and a declaration that is not anonymous comes out as one block: its
header, its own members and the blocks of its nested declarations. The standard normalization keeps
to it.
-/
namespace JavaStubs.Stubs

open Normalization (Members Transform capture capture_standard inner_capture)

/-- Whether capturing the members that a normalization makes leaves every class as it was. -/
def Conservative (transform : Transform) : Prop :=
  ∀ decl, (capture transform decl).2 = decl

theorem conservative_standard (protocol : List MethodDecl) :
    Conservative (Transform.standard protocol) :=
  capture_standard protocol

namespace Printer

/-- The printer that normalizes in the standard way, with that object protocol, and chooses calls by
those rules. -/
def standard (dialect : Source.Dialect) (index : ClassIndex) (protocol : List MethodDecl)
    (rules : List CallRule) : Printer :=
  { dialect, index, transform := .standard protocol, strategies := rules.map CallRule.strategy }

/-- Whether the strategies of a printer are those rules. -/
def Follows (p : Printer) (rules : List CallRule) : Prop :=
  p.strategies = rules.map CallRule.strategy

theorem follows_standard (dialect : Source.Dialect) (index : ClassIndex)
    (protocol : List MethodDecl) (rules : List CallRule) :
    (standard dialect index protocol rules).Follows rules := rfl

/-- The members that the normalization makes for a class. -/
def made (p : Printer) (decl : ClassDecl) : Members :=
  (capture p.transform decl).1

/-- The constructors in the block of a class. -/
def shownConstructors (p : Printer) (decl : ClassDecl) : List ConstructorDecl :=
  visibleConstructors decl (p.made decl)

/-- The methods in the block of a class. -/
def shownMethods (p : Printer) (decl : ClassDecl) : List MethodDecl :=
  visibleMethods decl (p.made decl)

/-- The body of a class's block. -/
def body (p : Printer) (decl : ClassDecl) : List Fragment :=
  p.ownMembers decl (p.made decl) ++ (p.printAll decl.inner).1

variable {p : Printer}

mutual

/-- Printing leaves the tree as it was: induction over the tree, since each nested class is
normalized by a visit of its own. -/
theorem print_snd (h : Conservative p.transform) : (decl : ClassDecl) → (p.print decl).2 = decl
  | { inner, .. } => by
    have hinner := printAll_snd h inner
    unfold print
    split
    · rfl
    · simp only [h _, hinner]

theorem printAll_snd (h : Conservative p.transform) :
    (decls : List ClassDecl) → (p.printAll decls).2 = decls
  | [] => by simp [printAll]
  | decl :: rest => by simp [printAll, print_snd h decl, printAll_snd h rest]

end

theorem print_anonymous {decl : ClassDecl} (hd : decl.isAnonymous = true) :
    (p.print decl).1 = [] := by
  obtain ⟨⟩ := decl
  unfold print
  rw [if_pos hd]

/-- A normalized class is printed, and within it the classes that are nested in it then. -/
theorem print_normalized (p : Printer) {decl : ClassDecl} (hd : decl.isAnonymous = false) :
    let normalized := (capture p.transform decl).2
    (p.print decl).1 =
      [.block (p.header normalized).text
        (p.ownMembers normalized (p.made decl) ++ (p.printAll normalized.inner).1)] := by
  intro normalized
  have hinner : normalized.inner = decl.inner := inner_capture p.transform decl
  rw [hinner]
  obtain ⟨⟩ := decl
  unfold print
  simp only [hd, Bool.false_eq_true, if_false, made, normalized]

theorem print_named (h : Conservative p.transform) {decl : ClassDecl}
    (hd : decl.isAnonymous = false) :
    (p.print decl).1 = [.block (p.header decl).text (p.body decl)] := by
  have hprint := p.print_normalized hd
  rwa [h decl] at hprint

theorem printInto_snd (h : Conservative p.transform) (decl : ClassDecl) (out : Layout) :
    (p.printInto decl out).2 = decl :=
  print_snd h decl

end Printer

end JavaStubs.Stubs
