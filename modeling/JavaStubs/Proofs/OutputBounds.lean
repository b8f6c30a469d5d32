import JavaStubs.Proofs.FaultyWrites
import JavaStubs.Proofs.FileRemoval
import JavaStubs.Proofs.Outcomes
import JavaStubs.Proofs.OutputPaths

/-!
# Files that a model touches

Every file that a generation makes, overwrites or deletes, and every file that cleaning deletes, is
accounted for by a deed under the path of a class that gets a file, on every disk and whatever goes
wrong there. These paths lie under the output directory but for some odd names of classes.
-/
namespace JavaStubs

namespace Files

namespace FileTree

variable {before after : FileTree} {path : Path}

theorem deleteFile_sameFiles {path : Path} (h : before.deleteFile path = .ok after) :
    ∃ spot, before.spot false path = .ok spot ∧ SameFiles (· = spot.place) before after := by
  obtain ⟨spot, name, entry, hs, hname, -, -, rfl⟩ := deleteFile_eq_ok h
  exact ⟨spot, hs, sameFiles_erase (by simp [place_of_last_name hname])⟩

/-- Deleting a directory is none of files. -/
theorem deleteDirectory_sameFiles (h : before.deleteDirectory path = .ok after) :
    SameFiles (fun _ => False) before after := by
  obtain ⟨spot, name, -, hname, hentry, -, rfl⟩ := deleteDirectory_eq_ok h
  have hne : spot.place ≠ [] := by simp [place_of_last_name hname]
  refine (sameFiles_erase hne).of_no_file ?_ ?_
  · simp [hentry]
  · simp [entry?_erase before hne]

end FileTree

namespace FaultyTree

open FileTree (SameFiles)

variable {α : Type} {disk before between after : FaultyTree} {path : Path}

/-- Between two disks only such deeds were done, and no file changed but by them. -/
def Accounted (allowed : Deed → Prop) (before after : FaultyTree) : Prop :=
  ∃ deeds, after.journal = before.journal ++ deeds ∧ (∀ deed ∈ deeds, allowed deed) ∧
    SameFiles (fun place => ∃ deed ∈ deeds, deed.place = place) before.tree after.tree

instance (allowed : Deed → Prop) : IsPreorder FaultyTree (Accounted allowed) where
  refl disk := ⟨[], (List.append_nil _).symm, by simp, SameFiles.refl _ _⟩
  trans before between after := by
    rintro ⟨deeds, hjournal, hallowed, hfiles⟩ ⟨deeds', hjournal', hallowed', hfiles'⟩
    refine ⟨deeds ++ deeds', by rw [hjournal', hjournal, List.append_assoc], ?_, ?_⟩
    · exact List.forall_mem_append.mpr ⟨hallowed, hallowed'⟩
    · refine (hfiles.mono ?_).trans (hfiles'.mono ?_)
      · rintro place ⟨deed, hdeed, hplace⟩
        exact ⟨deed, List.mem_append_left _ hdeed, hplace⟩
      · rintro place ⟨deed, hdeed, hplace⟩
        exact ⟨deed, List.mem_append_right _ hdeed, hplace⟩

theorem Accounted.mono {allowed allowed' : Deed → Prop} (h : Accounted allowed before after)
    (hsub : ∀ deed, allowed deed → allowed' deed) : Accounted allowed' before after := by
  obtain ⟨deeds, hjournal, hallowed, hfiles⟩ := h
  exact ⟨deeds, hjournal, fun deed hdeed => hsub deed (hallowed deed hdeed), hfiles⟩

theorem Always.mono {R S : FaultyTree → FaultyTree → Prop} {x : StateM FaultyTree α}
    (h : Always R x) (hsub : ∀ before after, R before after → S before after) : Always S x :=
  fun disk => hsub _ _ (h disk)

theorem Rests.accounted (h : Rests before after) (allowed : Deed → Prop) :
    Accounted allowed before after :=
  ⟨[], by rw [h.journal, List.append_nil], by simp, h.tree ▸ SameFiles.refl _ _⟩

theorem Builds.accounted (h : Builds before after) (allowed : Deed → Prop) :
    Accounted allowed before after :=
  ⟨[], by rw [h.journal, List.append_nil], by simp, h.tree.sameFiles.mono fun _ => False.elim⟩

theorem Opened.accounted {place : Place} {deeds : List Deed}
    (h : Opened path place deeds before after) : Accounted (·.path = path) before after := by
  refine ⟨_, h.journal, ?_, h.sameFiles.mono ?_⟩
  · rw [List.forall_mem_cons]
    refine ⟨rfl, fun deed hdeed => ?_⟩
    rcases h.kinds deed hdeed with rfl | ⟨other, rfl⟩
    · rfl
    · rfl
  · rintro other rfl
    exact ⟨_, List.mem_cons_self, rfl⟩

theorem accounted_writeFile (path : Path) (content : String) :
    Always (Accounted (·.path = path)) (writeFile path content : StateM FaultyTree _) := by
  intro disk
  rcases writeFile_cases path content disk with ⟨-, -, hbuilds⟩ | ⟨place, deeds, hopened⟩
  · exact hbuilds.accounted _
  · exact hopened.accounted

/-- A file was deleted under a path. -/
def Deed.Deletes (path : Path) (deed : Deed) : Prop := ∃ place, deed = .deleted path place

theorem accounted_deleteFile (path : Path) :
    Always (Accounted (Deed.Deletes path)) (Disk.deleteFile path : StateM FaultyTree _) := by
  intro disk
  rcases deleteFile_cases path disk with ⟨error, -, hrests⟩ | ⟨-, hdeleted, hjournal⟩
  · exact hrests.accounted _
  · obtain ⟨spot, hs, hfiles⟩ := FileTree.deleteFile_sameFiles hdeleted
    rw [noteAt_of_spot hs] at hjournal
    refine ⟨_, hjournal, by simp [Deed.Deletes], hfiles.mono ?_⟩
    rintro place rfl
    exact ⟨_, List.mem_singleton_self _, rfl⟩

theorem accounted_deleteIfPresent (path : Path) :
    Always (Accounted (Deed.Deletes path)) (deleteIfPresent path : StateM FaultyTree _) := by
  refine (accounted_deleteFile path).bind fun deleted => ?_
  split
  · exact Always.pure _
  · exact Always.pure _
  · exact Always.pure _

variable {allowed : Deed → Prop}

theorem accounted_deleteIfEmpty (path : Path) :
    Always (Accounted allowed) (Disk.deleteIfEmpty path : StateM FaultyTree _) := by
  intro disk
  rcases unlessFault_cases (deleteIfEmpty path) disk with ⟨error, -, hrests⟩ | ⟨due, hrests, hrun⟩
  · exact hrests.accounted allowed
  · refine IsTrans.trans _ due _ (hrests.accounted allowed) ?_
    rw [show Disk.deleteIfEmpty (m := StateM FaultyTree) path disk = _ from hrun]
    unfold deleteIfEmpty
    cases hdeleted : due.tree.deleteIfEmpty path with
    | error error => exact Std.Refl.refl due
    | ok result =>
      obtain ⟨deleted, tree⟩ := result
      refine ⟨[], (List.append_nil _).symm, by simp, ?_⟩
      rcases FileTree.deleteIfEmpty_eq_ok hdeleted with rfl | herased
      · exact SameFiles.refl _ _
      · exact (FileTree.deleteDirectory_sameFiles herased).mono fun _ => False.elim

/-- Induction over the directory, since its parent is shorter. -/
theorem accounted_deleteWhileEmpty (directory base : Path) :
    Always (Accounted allowed) (deleteWhileEmpty directory base : StateM FaultyTree _) := by
  induction hlength : directory.components.length using Nat.strongRecOn generalizing directory with
  | ind length ih =>
    rw [FileTree.deleteWhileEmpty_eq]
    split
    · exact Always.pure _
    · refine (accounted_deleteIfEmpty directory).bind fun deleted => ?_
      split
      · exact Always.pure _
      · exact Always.pure _
      · split
        · rename_i parent hparent
          exact ih _ (hlength ▸ Path.length_components_of_parent? hparent) parent rfl
        · exact Always.pure _

end FaultyTree

end Files

namespace Stubs

open Files (Disk Deed FaultyTree FileTree)
open Files.FaultyTree (Accounted Always Deed.Deletes)

section

variable {g : Generator}

/-- What is done to files for a class that gets one is done under the path of its stub. -/
def ForClass (pathOf : Path → String → Path) (settings : StubSettings) (decls : List ClassDecl)
    (deed : Deed) : Prop :=
  ∃ decl ∈ decls, settings.decision decl = .render ∧
    deed.path = pathOf settings.outputDirectory decl.name

theorem accounted_attempt (hc : Conservative g.printer.transform) (imports : ImportSet)
    (decl : ClassDecl) : Always (Accounted (ForClass writtenPath g.settings [decl]))
      (g.attempt imports decl : StateM FaultyTree _) := by
  unfold Generator.attempt
  cases hd : g.decision decl with
  | skip reason => exact Always.pure _
  | render =>
    have hpath : (g.stubFile imports decl).1.path g.settings.outputDirectory =
        writtenPath g.settings.outputDirectory decl.name := by
      rw [StubFile.path, StubFile.relativePath, Generator.stubFile_stub hc, writtenPath]
    simp only [hpath]
    refine Always.bind ((FaultyTree.accounted_writeFile _ _).mono fun _ _ h => h.mono ?_)
      fun written => ?_
    · exact fun deed hdeed => ⟨decl, List.mem_singleton_self _, hd, hdeed⟩
    · split
      · exact Always.pure _
      · exact Always.pure _

theorem accounted_attemptAll (hc : Conservative g.printer.transform)
    (placed : List (ImportSet × ClassDecl)) :
    Always (Accounted (ForClass writtenPath g.settings (placed.map Prod.snd)))
      (g.attemptAll placed : StateM FaultyTree _) := by
  induction placed with
  | nil => exact Always.pure _
  | cons first rest ih =>
    obtain ⟨imports, decl⟩ := first
    refine ((accounted_attempt hc imports decl).mono fun _ _ h => h.mono ?_).bind fun result =>
      (ih.mono fun _ _ h => h.mono ?_).bind fun _ => Always.pure _
    · rintro deed ⟨other, hother, hdeed⟩
      exact ⟨other, by simpa using Or.inl (List.mem_singleton.mp hother), hdeed⟩
    · rintro deed ⟨other, hother, hdeed⟩
      exact ⟨other, List.mem_cons_of_mem _ hother, hdeed⟩

end

theorem accounted_generateModel (model : DeclarationModel) (settings : StubSettings) :
    Always (Accounted (ForClass writtenPath settings model.topLevel))
      (generateModel model settings : StateM FaultyTree _) := by
  have hc : Conservative (modelGenerator model settings).printer.transform :=
    conservative_standard []
  intro disk
  rw [generateModel_eq, ← model.map_snd_placed]
  exact accounted_attemptAll hc model.placed disk

theorem accounted_deleteEmptyParents {allowed : Deed → Prop} (base path : Path) :
    Always (Accounted allowed) (Registry.deleteEmptyParents base path : StateM FaultyTree _) := by
  unfold Registry.deleteEmptyParents
  split
  · exact (FaultyTree.accounted_deleteWhileEmpty _ base).bind fun _ => Always.pure _
  · exact Always.pure _

theorem accounted_removeAll (base : Path) (paths : List Path) :
    Always (Accounted fun deed => ∃ path ∈ paths, Deed.Deletes path deed)
      (Registry.removeAll base paths : StateM FaultyTree _) := by
  induction paths with
  | nil => exact Always.pure _
  | cons path rest ih =>
    have hrest : Always (Accounted fun deed => ∃ other ∈ path :: rest, Deed.Deletes other deed)
        (Registry.removeAll base rest : StateM FaultyTree _) :=
      ih.mono fun _ _ h => h.mono fun deed ⟨other, hother, hdeed⟩ =>
        ⟨other, List.mem_cons_of_mem _ hother, hdeed⟩
    refine ((FaultyTree.accounted_deleteIfPresent path).mono fun _ _ h => h.mono fun deed hdeed =>
      ⟨path, List.mem_cons_self, hdeed⟩).bind fun deleted => ?_
    split
    · exact Always.pure _
    · exact (accounted_deleteEmptyParents base path).bind fun _ =>
        hrest.bind fun _ => Always.pure _
    · exact hrest.bind fun _ => Always.pure _

/-- What is registered for classes are their stubs, in a registry with the same settings. -/
theorem foldl_register_of_decls (decls : List ClassDecl) (registry : Registry) :
    let after := decls.foldl (fun registry decl => registry.register (Path.ofDotted decl.name))
      registry
    after.base = registry.base ∧ after.extension = registry.extension ∧
      ∀ stub ∈ after.stubs, stub ∈ registry.stubs ∨
        ∃ decl ∈ decls, stub = Path.ofDotted decl.name := by
  induction decls generalizing registry with
  | nil => exact ⟨rfl, rfl, fun _ => Or.inl⟩
  | cons decl rest ih =>
    obtain ⟨hbase, hextension, hstubs⟩ := ih (registry.register (Path.ofDotted decl.name))
    have hregister : (registry.register (Path.ofDotted decl.name)).base = registry.base ∧
        (registry.register (Path.ofDotted decl.name)).extension = registry.extension ∧
        ∀ stub ∈ (registry.register (Path.ofDotted decl.name)).stubs,
          stub ∈ registry.stubs ∨ stub = Path.ofDotted decl.name := by
      unfold Registry.register
      split
      · exact ⟨rfl, rfl, fun _ => Or.inl⟩
      · exact ⟨rfl, rfl, by simp⟩
    refine ⟨hbase.trans hregister.1, hextension.trans hregister.2.1, fun stub hstub => ?_⟩
    rcases hstubs stub hstub with hfirst | ⟨other, hother, rfl⟩
    · rcases hregister.2.2 stub hfirst with hold | rfl
      · exact Or.inl hold
      · exact Or.inr ⟨decl, List.mem_cons_self, rfl⟩
    · exact Or.inr ⟨other, List.mem_cons_of_mem _ hother, rfl⟩

/-- The paths that a model registers are those of the classes that get a file. -/
theorem mem_paths_registryOf {model : DeclarationModel} {settings : StubSettings} {path : Path}
    (h : path ∈ (registryOf model settings).paths) : ∃ decl ∈ model.topLevel,
      settings.decision decl = .render ∧
        path = registeredPath settings.outputDirectory decl.name := by
  obtain ⟨hbase, hextension, hstubs⟩ := foldl_register_of_decls
    (model.topLevel.filter fun decl => settings.decision decl = .render)
    (Registry.empty settings.outputDirectory stubExtension)
  change (registryOf model settings).base = _ at hbase
  change (registryOf model settings).extension = _ at hextension
  change ∀ stub ∈ (registryOf model settings).stubs, _ at hstubs
  generalize registryOf model settings = registry at h hbase hextension hstubs
  obtain ⟨stub, hstub, rfl⟩ := List.mem_map.mp h
  obtain ⟨decl, hdecl, rfl⟩ := (hstubs stub hstub).resolve_left (by simp [Registry.empty])
  obtain ⟨hmem, hrender⟩ := List.mem_filter.mp hdecl
  refine ⟨decl, hmem, of_decide_eq_true hrender, ?_⟩
  simp only [registeredPath, Registry.pathOf, hextension, hbase]

theorem cleanModel_snd (model : DeclarationModel) (settings : StubSettings) (disk : FaultyTree) :
    (cleanModel (m := StateM FaultyTree) model settings disk).2 =
      (Registry.removeAll (m := StateM FaultyTree) (registryOf model settings).base
        (registryOf model settings).paths disk).2 := by
  simp only [cleanModel, Registry.clean, FaultyTree.bind_apply]
  generalize Registry.removeAll (m := StateM FaultyTree) (registryOf model settings).base
    (registryOf model settings).paths disk = run
  obtain ⟨result, after⟩ := run
  cases result <;> rfl

theorem accounted_cleanModel (model : DeclarationModel) (settings : StubSettings) :
    Always (Accounted fun deed => ForClass registeredPath settings model.topLevel deed ∧
        Deed.Deletes deed.path deed)
      (cleanModel model settings : StateM FaultyTree _) := by
  intro disk
  rw [cleanModel_snd]
  refine (accounted_removeAll _ _ disk).mono ?_
  rintro deed ⟨path, hpath, place, rfl⟩
  exact ⟨mem_paths_registryOf hpath, place, rfl⟩

/-- On every disk, whatever goes wrong there, each file that a generation makes, overwrites or
deletes is accounted for by a deed under the path of the stub of a class that gets one, and so is
each file that cleaning deletes. A written path lies under the output directory unless a segment of
the class's name begins with a slash. A path that is deleted does so, too, unless the name has no
segment with a text and the output directory is given by a name. -/
theorem files_accounted (model : DeclarationModel) (settings : StubSettings) (disk : FaultyTree) :
    let out := settings.outputDirectory
    Accounted (fun deed => ∃ decl ∈ model.topLevel, settings.decision decl = .render ∧
        deed.path = writtenPath out decl.name ∧
        (out.Under deed.path ∨ Names.IsRooted decl.name))
      disk (generateModel (m := StateM FaultyTree) model settings disk).2 ∧
    Accounted (fun deed => (∃ place, deed = .deleted deed.path place) ∧
        ∃ decl ∈ model.topLevel, settings.decision decl = .render ∧
          deed.path = registeredPath out decl.name ∧
          (out.Under deed.path ∨ Names.IsRooted decl.name ∨
            Names.IsHollow decl.name ∧ out.fileName? ≠ none))
      disk (cleanModel (m := StateM FaultyTree) model settings disk).2 := by
  intro out
  constructor
  · refine (accounted_generateModel model settings disk).mono ?_
    rintro deed ⟨decl, hdecl, hrender, hpath⟩
    refine ⟨decl, hdecl, hrender, hpath, ?_⟩
    by_cases hrooted : Names.IsRooted decl.name
    · exact Or.inr hrooted
    · exact Or.inl (hpath ▸ under_writtenPath out hrooted)
  · refine (accounted_cleanModel model settings disk).mono ?_
    rintro deed ⟨⟨decl, hdecl, hrender, hpath⟩, hdeletes⟩
    refine ⟨hdeletes, decl, hdecl, hrender, hpath, ?_⟩
    by_cases hrooted : Names.IsRooted decl.name
    · exact Or.inr (Or.inl hrooted)
    -- Where no segment has a text, the output directory itself gets the suffix, if it has a name.
    · by_cases hhollow : Names.IsHollow decl.name ∧ out.fileName? ≠ none
      · exact Or.inr (Or.inr hhollow)
      · rw [not_and, not_not] at hhollow
        exact Or.inl (hpath ▸ under_registeredPath out hrooted hhollow)

/-- A class without a name. -/
def nameless : DeclarationModel := { units := [{ classes := [{ name := "" }] }] }

/-- A file whose name is that of the output directory with the extension of stubs. -/
def neighbour : FaultyTree :=
  { tree := (⟨Table.empty, []⟩ : Files.FileTree).put ["out.java"] (.file .empty) }

theorem deleteFile_neighbour :
    Disk.deleteFile (m := StateM FaultyTree) ⟨["out.java"]⟩ neighbour =
      (.ok (), { tree := neighbour.tree.erase ["out.java"]
                 journal := [.deleted ⟨["out.java"]⟩ ["out.java"]] }) := by
  have hplain := (FileTree.plain_put (FileTree.plain_empty []) (List.cons_ne_nil "out.java" []) rfl
    (.file .empty) nofun nofun).1
  have hname : Path.IsName "out.java" := by decide
  have hspot : neighbour.tree.spot false ⟨["out.java"]⟩ =
      .ok ⟨[], .name "out.java", false⟩ := by
    refine (FileTree.spot_concat_iff hplain.linkFree hname (List.nil_append _).symm).mpr ⟨?_, rfl⟩
    refine (FileTree.reaches_concat_iff hname (List.nil_append _).symm).mpr ⟨?_, ?_, by decide⟩
    · exact ⟨by decide, by decide, by decide⟩
    · exact FileTree.passable_nil
  have hdeleted : neighbour.tree.deleteFile ⟨["out.java"]⟩ =
      .ok (neighbour.tree.erase ["out.java"]) := by
    rw [FileTree.deleteFile, hspot]
    rfl
  simp only [Disk.deleteFile, FaultyTree.unlessFault, FaultyTree.bind_apply, FaultyTree.nextFault]
  change FaultyTree.change _ _ neighbour = _
  simp only [FaultyTree.change, hdeleted, FaultyTree.noteAt, hspot]
  rfl

/-- Cleaning deletes a file beside the output directory: the stub of a class without a name is
registered as the output directory itself. -/
theorem nameless_cleaned :
    let out := Path.ofString "out"
    let cleaned := (cleanModel (m := StateM FaultyTree) nameless { outputDirectory := out }
      neighbour).2
    .up ∉ out.components ∧ cleaned.journal = [.deleted (Path.ofString "out.java") ["out.java"]] ∧
      neighbour.tree.entry? ["out.java"] = some (.file .empty) ∧
      cleaned.tree.entry? ["out.java"] = none ∧ ¬ out.Under (Path.ofString "out.java") := by
  have hregistry : (registryOf nameless { outputDirectory := Path.ofString "out" }).base =
        Path.ofString "out" ∧
      (registryOf nameless { outputDirectory := Path.ofString "out" }).paths =
        [⟨["out.java"]⟩] := by decide +kernel
  have hparent : (⟨["out.java"]⟩ : Path).parent? = some Path.empty := by decide +kernel
  have hstays : Files.deleteWhileEmpty (m := StateM FaultyTree) Path.empty (Path.ofString "out") =
      pure (.ok ()) := by
    rw [FileTree.deleteWhileEmpty_eq, if_pos (by decide +kernel)]
  have hcleaned : (cleanModel (m := StateM FaultyTree) nameless
      { outputDirectory := Path.ofString "out" } neighbour).2 =
        { tree := neighbour.tree.erase ["out.java"]
          journal := [.deleted ⟨["out.java"]⟩ ["out.java"]] } := by
    rw [cleanModel_snd, hregistry.1, hregistry.2]
    simp only [Registry.removeAll, Files.deleteIfPresent, FaultyTree.bind_apply,
      deleteFile_neighbour, FaultyTree.pure_apply, Registry.deleteEmptyParents, hparent, hstays]
  intro out cleaned
  rw [show cleaned = _ from hcleaned]
  refine ⟨by decide, by decide +kernel, rfl, rfl, ?_⟩
  rintro ⟨rest, hrest, -⟩
  have hout : out.components = [.name "out"] := by decide
  have hfile : (Path.ofString "out.java").components = [.name "out.java"] := by decide
  rw [hout, hfile] at hrest
  simp at hrest

end Stubs

end JavaStubs
