import JavaStubs.Files.Tree
import JavaStubs.Proofs.Printing
import JavaStubs.Stubs.Generator

/-!
# Using one tree many times

A declaration tree is printed, rendered, previewed and generated in any order, and each use goes on
with the tree that the one before it left. No use changes the tree, and of a generator only the
registry ever changes; so a later rendering has the text of the first one.
-/
namespace JavaStubs.Stubs

open Files (Disk)

/-- One use of a declaration tree. -/
inductive TreeUse where
  | print (out : Layout)
  | render (imports : ImportSet)
  | preview (imports : ImportSet)
  | generate (imports : ImportSet)

namespace Generator

section

variable {m : Type → Type} [Monad m] [Disk m]

/-- The tree and the generator after one use. -/
def useOnce (g : Generator) (decl : ClassDecl) : TreeUse → m (ClassDecl × Generator)
  | .print out => return ((g.printer.printInto decl out).2, g)
  | .render imports => return ((g.render imports decl).2, g)
  | .preview imports => return ((g.preview imports decl).2, g)
  | .generate imports => do
    let (_, decl, g) ← g.generate imports decl
    return (decl, g)

/-- The tree and the generator after several uses, one after the other. -/
def use (g : Generator) (decl : ClassDecl) : List TreeUse → m (ClassDecl × Generator)
  | [] => return (decl, g)
  | first :: rest => do
    let (decl, g) ← g.useOnce decl first
    g.use decl rest

end

/-- All that a generator and a tree can still become: the tree stays, and so does the generator but
for its registry. -/
def keep (g : Generator) (decl : ClassDecl) (state : ClassDecl × Generator) :
    ClassDecl × Generator :=
  (decl, { g with registry := state.2.registry })

/-- What a generator makes of a tree: the tree printed at the end of a text, its file rendered,
previewed, and as it would be written. -/
def texts (g : Generator) (imports : ImportSet) (out : Layout) (decl : ClassDecl) :
    Layout × Option String × Option Preview × StubFile :=
  ((g.printer.printInto decl out).1, (g.render imports decl).1, (g.preview imports decl).1,
    (g.stubFile imports decl).1)

variable {g : Generator} {decl : ClassDecl}

theorem isAnonymous_of_render {settings : StubSettings}
    (h : settings.decision decl = .render) : decl.isAnonymous = false := by
  unfold StubSettings.decision at h
  cases hd : decl.isAnonymous with
  | false => rfl
  | true =>
    rw [hd, if_pos rfl] at h
    split at h <;> contradiction

theorem stubFile_snd (h : Conservative g.printer.transform) (imports : ImportSet) :
    (g.stubFile imports decl).2 = decl :=
  Printer.printInto_snd h decl .empty

theorem render_snd (h : Conservative g.printer.transform) (imports : ImportSet) :
    (g.render imports decl).2 = decl := by
  unfold render
  split
  · rfl
  · exact stubFile_snd h imports

theorem preview_snd (h : Conservative g.printer.transform) (imports : ImportSet) :
    (g.preview imports decl).2 = decl := by
  unfold preview
  split
  · rfl
  · exact stubFile_snd h imports

section

variable {m : Type → Type} [Monad m] [LawfulMonad m] [Disk m]

/-- Whatever becomes of the file, the tree that comes back is the one that was given. -/
theorem generate_keep (h : Conservative g.printer.transform) (imports : ImportSet) :
    (g.generate imports decl : m _) =
      (fun r => (r.1, decl, { g with registry := r.2.2.registry })) <$>
        g.generate imports decl := by
  have hfile : (g.stubFile imports decl).2 = decl := stubFile_snd h imports
  unfold generate
  split
  · simp
  · simp only [map_bind]
    congr 1
    funext written
    cases written <;> simp [hfile, register]

theorem useOnce_keep (h : Conservative g.printer.transform) (once : TreeUse) :
    (g.useOnce decl once : m _) = keep g decl <$> g.useOnce decl once := by
  cases once with
  | print out => simp [useOnce, keep, Printer.printInto_snd h]
  | render imports => simp [useOnce, keep, render_snd h]
  | preview imports => simp [useOnce, keep, preview_snd h]
  | generate imports =>
    simp only [useOnce]
    rw [generate_keep h imports]
    simp [keep]

/-- Induction over the uses: each one hands on the tree and a generator that differs from the first
one in its registry only, so the hypothesis applies to what is left. -/
theorem use_keep (h : Conservative g.printer.transform) (uses : List TreeUse) :
    (g.use decl uses : m _) = keep g decl <$> g.use decl uses := by
  induction uses generalizing g with
  | nil => simp [use, keep]
  | cons first rest ih =>
    simp only [use]
    rw [useOnce_keep h first]
    simp only [bind_map_left, map_bind]
    congr 1
    funext state
    exact ih (g := { g with registry := state.2.registry }) h

/-- No use of a tree changes it, at any depth and with any strategies for calls, since a strategy is
only asked for a text, which depends on the call site alone. So whatever was done with the tree
before, every text that is made of it is the one that is made of it first. -/
theorem tree_undisturbed (settings : StubSettings) (dialect : Source.Dialect) (index : ClassIndex)
    (protocol : List MethodDecl) (strategies : List CallStrategy) (registry : Registry)
    (decl : ClassDecl) :
    let printer : Printer := { dialect, index, transform := .standard protocol, strategies }
    let g : Generator := ⟨settings, printer, registry⟩
    (∀ out, (g.printer.printInto decl out).2 = decl) ∧
      (∀ imports, (g.render imports decl).2 = decl ∧ (g.preview imports decl).2 = decl) ∧
      (∀ uses, (g.use decl uses : m _) = g.keep decl <$> g.use decl uses) ∧
      ∀ uses imports out,
        (fun state => state.2.texts imports out state.1) <$> (g.use decl uses : m _) =
          (fun _ => g.texts imports out decl) <$> g.use decl uses := by
  intro printer g
  have h : Conservative g.printer.transform := conservative_standard protocol
  refine ⟨Printer.printInto_snd h decl, ?_, use_keep h, ?_⟩
  · intro imports
    exact ⟨render_snd h imports, preview_snd h imports⟩
  · intro uses imports out
    rw [use_keep h uses]
    simp [keep, texts, render, preview, decision, stubFile]

end

/-- A class whose method, constructor and nested class all have default arguments. -/
def canvas : ClassDecl :=
  { name := "geo.Canvas"
    methods :=
      [(MethodDecl.ofName "draw").addParameter
        ((Parameter.ofName "scale" .double).withDefault (.constant (.int 1)))]
    constructors :=
      [(ConstructorDecl.ofModifiers (.ofList [.publicAccess])).addParameter
        ((Parameter.ofName "name" .string).withDefault (.constant (.string "main")))]
    inner :=
      [{ name := "geo.Canvas$Pen"
         nesting := .member
         methods :=
           [(MethodDecl.ofName "dip").addParameter
             ((Parameter.ofName "depth" .int).withDefault (.other .int))] }] }

/-- A strategy that writes the name of the nested class, wherever there is one, into the call. -/
def namesNested : CallStrategy where
  name := "names-nested"
  callOf? site := site.decl.inner.head?.map fun nested => "super(\"" ++ nested.name ++ "\");"

theorem canvas_undisturbed :
    let g : Generator :=
      .start { outputDirectory := Path.ofString "out" } ∅ (.standard [.ofName "paint"])
        (namesNested :: CallStrategy.usual)
    LawfulMonad (StateM Files.FileTree) ∧
      (g.use canvas [.generate {}, .render {}, .print .empty] : StateM Files.FileTree _) =
        g.keep canvas <$> g.use canvas [.generate {}, .render {}, .print .empty] := by
  intro g
  refine ⟨inferInstance, ?_⟩
  exact (tree_undisturbed (m := StateM Files.FileTree) g.settings {} ∅ [.ofName "paint"]
    (namesNested :: CallStrategy.usual) g.registry canvas).2.2.1 _

end Generator

end JavaStubs.Stubs
