import JavaStubs.Proofs.StubRemoval

/-!
# Cleaned files

After a generation without failures the stubs of a model are there, and cleaning with the same
settings finds and deletes all of them. Everything else stays but directories that this leaves
empty. Where the path of the output directory leads through a package, this may fail: the last stub
in the package takes it away, and then the path leads nowhere.
-/
namespace JavaStubs.Stubs

open Files JavaStubs.Path
open Files.FileTree (Plain Grows Shrinks)

namespace Generator

variable {g : Generator} {placed : List (ImportSet × ClassDecl)}

/-- A dry run shows the classes that get a file, each under the path of its stub. -/
theorem map_fst_filesOf (hc : Conservative g.printer.transform)
    (hnames : ∀ x ∈ placed, Names.IsDotted x.2.name) :
    (g.filesOf placed).map Prod.fst =
      ((placed.map Prod.snd).filter (g.decision · = .render)).map (shownPath ·.name) := by
  induction placed with
  | nil => rfl
  | cons first rest ih =>
    obtain ⟨imports, decl⟩ := first
    rw [List.forall_mem_cons] at hnames
    cases hd : g.decision decl with
    | skip reason => simp [filesOf_cons_of_skip hd, hd, ih hnames.2]
    | render => simp [filesOf_cons_of_render hc hd hnames.1, hd, ih hnames.2]

/-- Where no class fails, every class that gets a file is reported as written, and its stub is there
in the end. -/
theorem attemptAll_written (hc : Conservative g.printer.transform) {tree : FileTree}
    (hplain : tree.Plain) (hhome : tree.entry? tree.workingDirectory = some .directory)
    (hnames : ∀ x ∈ placed, Names.IsDotted x.2.name)
    (hfailures : (reportOn g.settings.outputDirectory
      (named (g.attemptAll (m := StateM FileTree) placed tree).1)).failures = []) :
    let run := g.attemptAll (m := StateM FileTree) placed tree
    let rendered := (placed.map Prod.snd).filter (g.decision · = .render)
    (reportOn g.settings.outputDirectory (named run.1)).written =
        rendered.map (shownPath ·.name) ∧
      ∀ decl ∈ rendered, ∃ place bytes,
        run.2.find (stubPath g.settings.outputDirectory decl.name) = .ok (place, .file bytes) := by
  intro run rendered
  obtain ⟨attempts, hdecls, hfiles, hwritten, hremarks, hfound⟩ :=
    exists_attempts hc hplain hhome hnames
  have hsucceeded : ∀ a ∈ attempts, a.succeeded = true := by
    intro a ha
    have hnone := List.filterMap_eq_nil_iff.mp (hremarks.symm.trans hfailures) a ha
    exact Option.isNone_iff_eq_none.mpr (Option.map_eq_none_iff.mp hnone)
  have hshown : attempts.map (·.preview.path) = rendered.map (shownPath ·.name) := by
    rw [← map_fst_filesOf hc hnames, hfiles, List.map_map]
    rfl
  rw [List.filter_eq_self.mpr hsucceeded] at hwritten
  refine ⟨hwritten.trans hshown, fun decl hdecl => ?_⟩
  obtain ⟨a, ha, hpath⟩ := List.mem_map.mp (hshown ▸ List.mem_map_of_mem hdecl)
  obtain ⟨content, place, -, hfile⟩ := hfound a ha (hsucceeded a ha)
  obtain ⟨x, hx, rfl⟩ := List.mem_map.mp (List.mem_filter.mp hdecl).1
  rw [hpath, ofString_shownPath (hnames x hx)] at hfile
  exact ⟨place, content.toUTF8, hfile⟩

end Generator

theorem generateModel_apply (model : DeclarationModel) (settings : StubSettings) (tree : FileTree) :
    generateModel (m := StateM FileTree) model settings tree =
      (({ outputDirectory := settings.outputDirectory.text
          classes := model.topLevelCount
          result := .written (reportOn settings.outputDirectory
            (Generator.named ((modelGenerator model settings).attemptAll (m := StateM FileTree)
              model.placed tree).1)) }, model),
        ((modelGenerator model settings).attemptAll (m := StateM FileTree) model.placed tree).2) :=
  congrFun (generateModel_eq (m := StateM FileTree) model settings) tree

/-- A generation without failures writes the stub of every class that gets a file; the stubs are
there afterwards, and everything else in the tree is as it was. -/
theorem generateModel_written {model : DeclarationModel} {settings : StubSettings}
    (hnames : ∀ decl ∈ model.topLevel, Names.IsDotted decl.name) {tree : FileTree}
    (hplain : tree.Plain) (hhome : tree.entry? tree.workingDirectory = some .directory)
    {written : Report.Written}
    (hresult : (generateModel (m := StateM FileTree) model settings tree).1.1.result =
      .written written) (hfailures : written.failures = []) :
    let generated := (generateModel (m := StateM FileTree) model settings tree).2
    written.written = (renderedNames model settings).map shownPath ∧ generated.Plain ∧
      Grows (fun place => ∃ n ∈ renderedNames model settings,
        place = tree.placeOf settings.outputDirectory ++ stubWay n) tree generated ∧
      ∀ n ∈ renderedNames model settings, ∃ place bytes,
        generated.find (stubPath settings.outputDirectory n) = .ok (place, .file bytes) := by
  intro generated
  have hplaced : ∀ x ∈ model.placed, Names.IsDotted x.2.name := fun x hx =>
    hnames x.2 (DeclarationModel.mem_topLevel_of_mem_placed hx)
  have hc : Conservative (modelGenerator model settings).printer.transform :=
    conservative_standard []
  have hgenerated : generated = _ := congrArg Prod.snd (generateModel_apply model settings tree)
  rw [generateModel_apply] at hresult
  obtain rfl := Report.Generation.written.inj hresult
  obtain ⟨hwritten, hfound⟩ := Generator.attemptAll_written hc hplain hhome hplaced hfailures
  obtain ⟨hafter, hgrows⟩ :=
    Generator.confined_attemptAll hc tree.workingDirectory hplaced tree hplain rfl hhome
  rw [model.map_snd_placed] at hwritten hfound
  rw [hgenerated]
  refine ⟨?_, hafter, hgrows.mono ?_, ?_⟩
  · rw [renderedNames, List.map_map]
    exact hwritten
  · rintro place ⟨x, hx, hd, hplace⟩
    have hrendered : x.2 ∈ model.topLevel.filter (settings.decision · = .render) :=
      List.mem_filter.mpr ⟨DeclarationModel.mem_topLevel_of_mem_placed hx, decide_eq_true hd⟩
    exact ⟨x.2.name, List.mem_map_of_mem hrendered, hplace⟩
  · rw [renderedNames, List.forall_mem_map]
    exact hfound

/-- The stubs that were written, each once, in order of first occurrence. -/
def writtenStubs (out : Path) (written : Report.Written) : List Path :=
  written.written.eraseDups.map fun shown => out.join (ofString shown)

theorem writtenStubs_eq {out : Path} {written : Report.Written} {names : List String}
    (hnames : ∀ n ∈ names, Names.IsDotted n) (hwritten : written.written = names.map shownPath) :
    writtenStubs out written = names.eraseDups.map (stubPath out) := by
  have hinjective : ∀ n ∈ names, ∀ other ∈ names, shownPath n = shownPath other → n = other :=
    fun n hn other ho => shownPath_inj (hnames n hn) (hnames other ho)
  rw [writtenStubs, hwritten, eraseDups_map hinjective, List.map_map]
  refine List.map_congr_left fun n hn => ?_
  rw [Function.comp_apply, ofString_shownPath (hnames n (List.mem_eraseDups.mp hn)), stubPath]

theorem cleanModel_eq (model : DeclarationModel) (settings : StubSettings) (tree : FileTree) :
    cleanModel (m := StateM FileTree) model settings tree =
      Prod.map
        (Except.map fun cleaned =>
          { dryRun := false
            deleted := cleaned.deleted.map Path.text
            missing := cleaned.missing.map Path.text }) id
        (Registry.removeAll (m := StateM FileTree) (registryOf model settings).base
          (registryOf model settings).paths tree) := by
  simp only [cleanModel, Registry.clean, FileTree.bind_apply]
  generalize Registry.removeAll (m := StateM FileTree) (registryOf model settings).base
    (registryOf model settings).paths tree = run
  obtain ⟨result, after⟩ := run
  cases result <;> rfl

/-- Where the stubs of a model are there, cleaning deletes all of them, and nothing else goes but
directories that this leaves empty. -/
theorem cleanModel_stubs {model : DeclarationModel} {settings : StubSettings}
    (hnames : ∀ decl ∈ model.topLevel, Names.IsDotted decl.name) {tree : FileTree}
    (hplain : tree.Plain) (hstraight : Straight tree.workingDirectory settings.outputDirectory)
    (hstands : ∀ n ∈ renderedNames model settings, ∃ place bytes,
      tree.find (stubPath settings.outputDirectory n) = .ok (place, .file bytes)) :
    let names := (renderedNames model settings).eraseDups
    let out := settings.outputDirectory
    let run := cleanModel (m := StateM FileTree) model settings tree
    let cleaned := run.2
    (∃ (report : Report.CleaningReport) (deleted : List Path), run.1 = .ok report ∧
      report.deleted = deleted.map Path.text ∧
      deleted.map Path.components = names.map (fun n => (stubPath out n).components) ∧
      report.missing = []) ∧
    cleaned.Plain ∧
    Shrinks (fun place entry => ∃ n ∈ names, LostWith (tree.placeOf out) n place entry)
      tree cleaned ∧
    ∀ n ∈ names, cleaned.entry? (tree.placeOf out ++ stubWay n) = none := by
  intro names out run cleaned
  have hdotted : ∀ n ∈ names, Names.IsDotted n := fun n hn =>
    isDotted_of_mem_renderedNames hnames (List.mem_eraseDups.mp hn)
  have hstands : ∀ n ∈ names, _ := fun n hn => hstands n (List.mem_eraseDups.mp hn)
  have hcleaned : run = _ := cleanModel_eq model settings tree
  obtain ⟨hbase, hextension, hregistered⟩ := registryOf_eq hnames settings
  generalize registryOf model settings = registry at hbase hextension hregistered hcleaned
  have hbase : registry.base = out := hbase
  have hdistinct : names.Nodup := by
    have hdistinct := registry.distinct
    rw [hregistered] at hdistinct
    exact List.Nodup.of_map _ (List.Nodup.of_map _ hdistinct)
  have hpaths : registry.paths = names.map (fun n => registry.pathOf (ofDotted n)) := by
    rw [Registry.paths, hregistered, List.map_map, Function.comp_def]
  obtain ⟨hrun, hafter, hshrinks, hgone⟩ := removeAll_stubs hextension hplain
    (hbase ▸ hstraight) hdotted hdistinct (hbase ▸ hstands)
  rw [← hpaths] at hrun hafter hshrinks hgone
  generalize Registry.removeAll (m := StateM FileTree) registry.base registry.paths tree = removal
    at hrun hafter hshrinks hgone hcleaned
  obtain ⟨result, after⟩ := removal
  obtain rfl : result = _ := hrun
  rw [hbase] at hshrinks hgone
  simp only [cleaned, hcleaned]
  refine ⟨⟨_, registry.paths, rfl, rfl, ?_, rfl⟩, hafter, hshrinks, hgone⟩
  rw [hpaths, List.map_map]
  refine List.map_congr_left fun n hn => ?_
  obtain ⟨-, -, -, hcomponents⟩ := pathOf_ofDotted hextension (hdotted n hn)
  rw [Function.comp_apply, hcomponents, hbase, stubPath,
    components_join_stubWay out (hdotted n hn)]

theorem isPresent_stub_eq_false {out : Path} {name : String} {tree : FileTree}
    (hname : Names.IsDotted name) (h : tree.LinkFree)
    (hgone : tree.entry? (tree.placeOf out ++ stubWay name) = none) :
    tree.isPresent (stubPath out name) = false := by
  rw [FileTree.isPresent]
  cases hfound : tree.find (stubPath out name) with
  | error error => rfl
  | ok found =>
    obtain ⟨-, hplace, hentry⟩ := (FileTree.find_concat_iff h (isName_stubFileName name)
      (pieces_stubPath hname)).mp hfound
    rw [hplace, placeOf_stubPath hname] at hentry
    exact absurd (hentry.symm.trans hgone) (Option.some_ne_none _)

/-- Deleting stubs leaves the directory that they lie under. -/
theorem isDirectory_of_shrinks {out : Path} {tree after : FileTree}
    (hstraight : Straight tree.workingDirectory out) (hplain : tree.Plain) (hafter : after.Plain)
    {names : List String}
    (hshrinks : Shrinks (fun place entry => ∃ n ∈ names, LostWith (tree.placeOf out) n place entry)
      tree after) : after.isDirectory out = tree.isDirectory out := by
  rw [Bool.eq_iff_iff, FileTree.isDirectory_iff hafter.linkFree,
    FileTree.isDirectory_iff hplain.linkFree, hshrinks.placeOf]
  refine and_congr_right fun _ => ⟨?_, ?_⟩
  · rintro ⟨hpassable, hentry⟩
    rw [hshrinks.workingDirectory] at hpassable
    exact ⟨hpassable.of_directories fun _ _ => hshrinks.of_after, hshrinks.of_after hentry⟩
  · rintro ⟨hpassable, hentry⟩
    refine ⟨hstraight.passable hshrinks (fun _ _ ⟨n, _, h⟩ => ⟨n, h⟩) hpassable,
      hshrinks.keeps hentry ?_⟩
    rintro ⟨n, -, hlost⟩
    obtain ⟨rest, hne, heq⟩ := hlost.below
    exact hne (List.append_right_eq_self.mp heq.symm)

/-- Cleaning after a generation without failures deletes exactly the stubs that were written, each
once, in order of first occurrence. Nothing else goes but directories strictly below the output
directory that lead to a deleted stub and hold nothing any more. -/
theorem clean_removes_written (model : DeclarationModel) (settings : StubSettings)
    (hnames : ∀ decl ∈ model.topLevel, Names.IsDotted decl.name) (tree : FileTree)
    (hplain : tree.Plain) (hhome : tree.entry? tree.workingDirectory = some .directory)
    (hstraight : Straight tree.workingDirectory settings.outputDirectory)
    (written : Report.Written)
    (hresult : (generateModel (m := StateM FileTree) model settings tree).1.1.result =
      .written written) (hfailures : written.failures = []) :
    let out := settings.outputDirectory
    let stubs := writtenStubs out written
    let generated := (generateModel (m := StateM FileTree) model settings tree).2
    let run := cleanModel (m := StateM FileTree) model settings generated
    let cleaned := run.2
    (∃ (report : Report.CleaningReport) (deleted : List Path), run.1 = .ok report ∧
      report.deleted = deleted.map Path.text ∧
      deleted.map Path.components = stubs.map Path.components ∧ report.missing = []) ∧
    (∀ stub ∈ stubs, cleaned.isPresent stub = false) ∧
    (∀ place bytes, tree.entry? place = some (.file bytes) →
      (∀ stub ∈ stubs, tree.placeOf stub ≠ place) →
      cleaned.entry? place = some (.file bytes)) ∧
    (∀ place, cleaned.entry? place = generated.entry? place ∨
      cleaned.entry? place = none ∧ ∃ stub ∈ stubs, tree.placeOf stub = place ∨
        generated.entry? place = some .directory ∧
          (∃ names, names ≠ [] ∧ place = tree.placeOf out ++ names) ∧
          place <+: tree.placeOf stub ∧ ∀ names, cleaned.entry? (place ++ names) = none) ∧
    cleaned.isDirectory out = generated.isDirectory out := by
  intro out stubs generated run cleaned
  obtain ⟨hwritten, hgenerated, hgrows, hfound⟩ :=
    generateModel_written hnames hplain hhome hresult hfailures
  obtain ⟨⟨report, deleted, hok, htexts, hdeleted, hmissing⟩, hafter, hshrinks, hgone⟩ :=
    cleanModel_stubs hnames hgenerated (hgrows.workingDirectory.symm ▸ hstraight) hfound
  rw [hgrows.placeOf] at hshrinks hgone
  have hdotted : ∀ n ∈ renderedNames model settings, Names.IsDotted n := fun _ =>
    isDotted_of_mem_renderedNames hnames
  have hstubs : stubs = (renderedNames model settings).eraseDups.map (stubPath out) :=
    writtenStubs_eq hdotted hwritten
  have hstub : ∀ n ∈ (renderedNames model settings).eraseDups,
      Names.IsDotted n ∧ stubPath out n ∈ stubs := fun n hn =>
    ⟨hdotted n (List.mem_eraseDups.mp hn), hstubs ▸ List.mem_map_of_mem hn⟩
  refine ⟨⟨report, deleted, hok, htexts, ?_, hmissing⟩, ?_, ?_, ?_, ?_⟩
  · rw [hstubs, hdeleted, List.map_map]
    rfl
  · rw [hstubs, List.forall_mem_map]
    intro n hn
    refine isPresent_stub_eq_false (hstub n hn).1 hafter.linkFree ?_
    rw [hshrinks.placeOf, hgrows.placeOf]
    exact hgone n hn
  · intro place bytes hentry hother
    have hkept : generated.entry? place = some (.file bytes) := by
      refine hgrows.keeps ?_ hentry
      rintro ⟨n, hn, hplace⟩
      obtain ⟨hn', hmem⟩ := hstub n (List.mem_eraseDups.mpr hn)
      exact hother _ hmem ((placeOf_stubPath hn').trans hplace.symm)
    refine hshrinks.keeps hkept ?_
    rintro ⟨n, hn, hlost⟩
    rcases hlost.cases (hstub n hn).1 with hplace | ⟨hdirectory, -⟩
    · exact hother _ (hstub n hn).2 hplace
    · exact Entry.noConfusion hdirectory
  · intro place
    refine (hshrinks.entries place).imp_right ?_
    rintro ⟨hnone, entry, hentry, n, hn, hlost⟩
    refine ⟨hnone, _, (hstub n hn).2, ?_⟩
    refine (hlost.cases (hstub n hn).1).imp_right ?_
    rintro ⟨rfl, hbelow, hway⟩
    exact ⟨hentry, hbelow, hway, hafter.nothing_below hnone⟩
  · rw [← hgrows.placeOf] at hshrinks
    exact isDirectory_of_shrinks (hgrows.workingDirectory.symm ▸ hstraight) hgenerated hafter
      hshrinks

/-- A class in a package and a class beside it. -/
def tangled : DeclarationModel := { units := [{ classes := [{ name := "a.C" }, { name := "D" }] }] }

/-- The stubs of the two classes; nothing else is in the directory of the package. -/
def tangledFiles (inner outer : ByteArray) : FileTree :=
  (((⟨Table.empty, []⟩ : FileTree).put ["a"] .directory).put ["a", "C.java"] (.file inner)).put
    ["D.java"] (.file outer)

theorem plain_tangledFiles (inner outer : ByteArray) : (tangledFiles inner outer).Plain := by
  have hdirectory := (FileTree.plain_put (FileTree.plain_empty []) (List.cons_ne_nil "a" []) rfl
    .directory nofun nofun).1
  have hinner := (FileTree.plain_put hdirectory (List.cons_ne_nil "a" ["C.java"]) rfl
    (.file inner) nofun nofun).1
  exact (FileTree.plain_put hinner (List.cons_ne_nil "D.java" []) rfl (.file outer) nofun nofun).1

section

variable {out : Path} (hout : out = ofString "." ∨ out = ofString "a/..")

include hout

theorem find_tangledFiles (inner outer : ByteArray) :
    (tangledFiles inner outer).find (stubPath out "a.C") =
        .ok (["a", "C.java"], .file inner) ∧
      (tangledFiles inner outer).find (stubPath out "D") =
        .ok (["D.java"], .file outer) := by
  have hplain := plain_tangledFiles inner outer
  have hbase : (tangledFiles inner outer).Passable [] out.components := by
    rcases hout with rfl | rfl
    · exact (FileTree.passable_cons_sign (by simp)).mpr FileTree.passable_nil
    · refine FileTree.passable_cons_name.mpr ⟨by decide, rfl, ?_⟩
      exact FileTree.passable_cons_up.mpr FileTree.passable_nil
  have hplace : (tangledFiles inner outer).placeOf out = [] := by rcases hout with rfl | rfl <;> rfl
  have husable : ∀ name ∈ ["a.C", "D"], FileTree.Usable (stubPath out name) := by
    rcases hout with rfl | rfl
    all_goals
      simp only [List.forall_mem_cons, List.not_mem_nil, false_imp_iff, implies_true, and_true]
      exact ⟨⟨by decide +kernel, by decide +kernel, by decide +kernel⟩,
        ⟨by decide +kernel, by decide +kernel, by decide +kernel⟩⟩
  have hstub : ∀ name ∈ ["a.C", "D"], ∀ entry,
      FileTree.entry? (tangledFiles inner outer) (stubWay name) = some entry →
      (tangledFiles inner outer).find (stubPath out name) = .ok (stubWay name, entry) := by
    intro name hname entry hentry
    have hshort : ∀ name ∈ ["a.C", "D"], Names.IsDotted name ∧
        ∀ n ∈ stubWay name, n.utf8ByteSize ≤ FileTree.nameLimit := by decide +kernel
    obtain ⟨hdotted, hshort⟩ := hshort name hname
    have hfound := find_stub hplain hdotted (husable name hname) hbase hshort
      (by rwa [hplace, List.nil_append])
    rwa [hplace, List.nil_append] at hfound
  exact ⟨hstub "a.C" (by simp) _ rfl, hstub "D" (by simp) _ rfl⟩

/-- Trying a class of the package whose stub is there changes nothing but the stub. -/
theorem attempt_inside {g : Generator} (hc : Conservative g.printer.transform)
    (hbase : g.settings.outputDirectory = out) {decl : ClassDecl} (hname : decl.name = "a.C")
    (hrender : g.decision decl = .render) (inner outer : ByteArray) : ∃ inner',
    g.attempt (m := StateM FileTree) {} decl (tangledFiles inner outer) =
      (.ok (.written (stubPath out "a.C")), tangledFiles inner' outer) := by
  have hfound := (find_tangledFiles hout inner outer).1
  rw [← hbase, ← hname] at hfound ⊢
  exact ⟨_, Generator.attempt_of_find hc hrender (hname ▸ by decide +kernel)
    (plain_tangledFiles inner outer) rfl hfound {}⟩

/-- The same for the class beside the package. -/
theorem attempt_beside {g : Generator} (hc : Conservative g.printer.transform)
    (hbase : g.settings.outputDirectory = out) {decl : ClassDecl} (hname : decl.name = "D")
    (hrender : g.decision decl = .render) (inner outer : ByteArray) : ∃ outer',
    g.attempt (m := StateM FileTree) {} decl (tangledFiles inner outer) =
      (.ok (.written (stubPath out "D")), tangledFiles inner outer') := by
  have hfound := (find_tangledFiles hout inner outer).2
  rw [← hbase, ← hname] at hfound ⊢
  exact ⟨_, Generator.attempt_of_find hc hrender (hname ▸ by decide +kernel)
    (plain_tangledFiles inner outer) rfl hfound {}⟩

/-- Writing the two stubs again changes nothing but their contents. -/
theorem generateModel_tangled (inner outer : ByteArray) : ∃ inner' outer',
    generateModel (m := StateM FileTree) tangled { outputDirectory := out }
        (tangledFiles inner outer) =
      (({ outputDirectory := out.text
          classes := 2
          result := .written { written := ["a/C.java", "D.java"] } }, tangled),
        tangledFiles inner' outer') := by
  have hc : Conservative (modelGenerator tangled { outputDirectory := out }).printer.transform :=
    conservative_standard []
  obtain ⟨inner', hfirst⟩ := attempt_inside hout hc rfl
    (rfl : ClassDecl.name { name := "a.C" } = _) rfl inner outer
  obtain ⟨outer', hsecond⟩ := attempt_beside hout hc rfl
    (rfl : ClassDecl.name { name := "D" } = _) rfl inner' outer
  have hrun : (modelGenerator tangled { outputDirectory := out }).attemptAll (m := StateM FileTree)
      tangled.placed (tangledFiles inner outer) =
        ([({ name := "a.C" }, .ok (.written (stubPath out "a.C"))),
          ({ name := "D" }, .ok (.written (stubPath out "D")))], tangledFiles inner' outer') := by
    have hplaced : tangled.placed = [({}, { name := "a.C" }), ({}, { name := "D" })] := rfl
    simp only [hplaced, Generator.attemptAll_cons, hfirst, hsecond]
    rfl
  have hreport : reportOn out (Generator.named
      [({ name := "a.C" }, .ok (.written (stubPath out "a.C"))),
        ({ name := "D" }, .ok (.written (stubPath out "D")))]) =
      { written := ["a/C.java", "D.java"] } := by
    rcases hout with rfl | rfl <;> decide +kernel
  refine ⟨inner', outer', ?_⟩
  rw [generateModel_apply, hrun, hreport]
  rfl

end

theorem tangled_cleaned : Straight [] (ofString ".") ∧
    (generateModel (m := StateM FileTree) tangled { outputDirectory := ofString "." }
      (tangledFiles .empty .empty)).1.1.result = .written { written := ["a/C.java", "D.java"] } ∧
    (∃ (report : Report.CleaningReport) (deleted : List Path),
      (cleanModel (m := StateM FileTree) tangled { outputDirectory := ofString "." }
        (generateModel (m := StateM FileTree) tangled { outputDirectory := ofString "." }
          (tangledFiles .empty .empty)).2).1 = .ok report ∧
      report.deleted = deleted.map Path.text ∧
      deleted.map Path.components =
        [[.here, .name "a", .name "C.java"], [.here, .name "D.java"]] ∧
      report.missing = []) := by
  have hstraight : Straight [] (ofString ".") := by decide
  obtain ⟨inner, outer, hrun⟩ := generateModel_tangled (.inl rfl) .empty .empty
  have hresult := congrArg (·.1.1.result) hrun
  obtain ⟨⟨report, deleted, hok, htexts, hdeleted, hmissing⟩, -⟩ :=
    clean_removes_written tangled { outputDirectory := ofString "." } (by decide +kernel)
      (tangledFiles .empty .empty) (plain_tangledFiles _ _) rfl hstraight _ hresult rfl
  exact ⟨hstraight, hresult, report, deleted, hok, htexts, hdeleted.trans (by decide +kernel),
    hmissing⟩

/-- The stub beside the package, alone. -/
def loneFile (outer : ByteArray) : FileTree :=
  (⟨Table.empty, []⟩ : FileTree).put ["D.java"] (.file outer)

/-- When the stub in the package is deleted, the package goes, too. -/
theorem deleteEmptyParents_tangledFiles (inner outer : ByteArray) :
    Registry.deleteEmptyParents (m := StateM FileTree) (ofString "a/..")
        ⟨["a", "..", "a", "C.java"]⟩ ((tangledFiles inner outer).erase ["a", "C.java"]) =
      ((), loneFile outer) := by
  have hleft := (FileTree.plain_erase (plain_tangledFiles inner outer)
    (List.cons_ne_nil "a" ["C.java"])
    (by change some (Entry.file inner) ≠ some .directory; simp)).1.linkFree
  have hname : IsName "a" := by decide
  have hpieces : (⟨["a", "..", "a"]⟩ : Path).pieces = ["a", ".."] ++ ["a"] := rfl
  have hfound : ((tangledFiles inner outer).erase ["a", "C.java"]).find ⟨["a", "..", "a"]⟩ =
      .ok (["a"], .directory) := by
    refine (FileTree.find_concat_iff hleft hname hpieces).mpr
      ⟨(FileTree.reaches_concat_iff hname hpieces).mpr ⟨?_, ?_, by decide⟩, rfl, rfl⟩
    · exact ⟨by decide, by decide, by decide⟩
    · refine FileTree.passable_cons_name.mpr ⟨by decide, rfl, ?_⟩
      exact FileTree.passable_cons_up.mpr FileTree.passable_nil
  have hempty : ((tangledFiles inner outer).erase ["a", "C.java"]).children ["a"] = [] := rfl
  have hpruned : Disk.deleteIfEmpty (m := StateM FileTree) ⟨["a", "..", "a"]⟩
      ((tangledFiles inner outer).erase ["a", "C.java"]) = (.ok true, loneFile outer) :=
    FileTree.deleteIfEmpty_of_find hleft hname hpieces hfound hempty
  have hparent : (⟨["a", "..", "a", "C.java"]⟩ : Path).parent? = some ⟨["a", "..", "a"]⟩ := by
    decide +kernel
  have hbase : (⟨["a", "..", "a"]⟩ : Path).parent? = some (ofString "a/..") := by decide +kernel
  simp only [Registry.deleteEmptyParents, hparent]
  rw [FileTree.deleteWhileEmpty_eq, if_neg (by decide +kernel)]
  simp only [FileTree.bind_apply, hpruned, hbase]
  rw [FileTree.deleteWhileEmpty_eq, if_pos (by decide +kernel)]
  rfl

/-- The path to the other stub leads through the package, so then it leads nowhere. -/
theorem cleanModel_tangled (inner outer : ByteArray) :
    cleanModel (m := StateM FileTree) tangled { outputDirectory := ofString "a/.." }
        (tangledFiles inner outer) =
      (.ok { dryRun := false, deleted := ["a/../a/C.java"], missing := ["a/../D.java"] },
        loneFile outer) := by
  have hregistry : (registryOf tangled { outputDirectory := ofString "a/.." }).base =
        ofString "a/.." ∧
      (registryOf tangled { outputDirectory := ofString "a/.." }).paths =
        [⟨["a", "..", "a", "C.java"]⟩, ⟨["a", "..", "D.java"]⟩] := by decide +kernel
  have hdeleted : deleteIfPresent (m := StateM FileTree) ⟨["a", "..", "a", "C.java"]⟩
      (tangledFiles inner outer) =
        (.ok true, (tangledFiles inner outer).erase ["a", "C.java"]) := by
    have hstub : stubPath (ofString "a/..") "a.C" = ⟨["a", "..", "a", "C.java"]⟩ := by
      decide +kernel
    rw [← hstub]
    exact FileTree.deleteIfPresent_of_find (plain_tangledFiles inner outer).linkFree
      (isName_stubFileName "a.C") (pieces_stubPath (by decide +kernel))
      (find_tangledFiles (.inr rfl) inner outer).1
  have hmissing : deleteIfPresent (m := StateM FileTree) ⟨["a", "..", "D.java"]⟩
      (loneFile outer) = (.ok false, loneFile outer) := by
    have hlinks : (loneFile outer).LinkFree := (FileTree.plain_put (FileTree.plain_empty [])
      (List.cons_ne_nil "D.java" []) rfl (.file outer) nofun nofun).1.linkFree
    exact FileTree.deleteIfPresent_of_vacant hlinks (by decide : IsName "a") rfl rfl
      ⟨by decide, by decide, by decide⟩ (by decide) rfl
  rw [cleanModel_eq, hregistry.1, hregistry.2, removeAll_cons _ _ _ hdeleted,
    deleteEmptyParents_tangledFiles]
  simp only [Registry.removeAll, FileTree.bind_apply, hmissing]
  rfl

/-- Where the output path leads through a package, a stub can be left behind and be reported as
missing: the first one takes the package with it. -/
theorem tangled_not_cleaned :
    ¬ Straight [] (ofString "a/..") ∧
    (generateModel (m := StateM FileTree) tangled { outputDirectory := ofString "a/.." }
      (tangledFiles .empty .empty)).1.1.result = .written { written := ["a/C.java", "D.java"] } ∧
    ∃ outer, cleanModel (m := StateM FileTree) tangled { outputDirectory := ofString "a/.." }
        (generateModel (m := StateM FileTree) tangled { outputDirectory := ofString "a/.." }
          (tangledFiles .empty .empty)).2 =
      (.ok { dryRun := false, deleted := ["a/../a/C.java"], missing := ["a/../D.java"] },
        loneFile outer) := by
  obtain ⟨inner, outer, hrun⟩ := generateModel_tangled (.inr rfl) .empty .empty
  refine ⟨by decide, congrArg (·.1.1.result) hrun, outer, ?_⟩
  rw [hrun]
  exact cleanModel_tangled inner outer

end JavaStubs.Stubs
