import JavaStubs.Proofs.PrunedDirectories
import JavaStubs.Proofs.SeparateClasses

/-!
# Stubs of different classes

Dots cut a name into segments, so a stub's path is as good as the name: two names with proper
segments have the same path only if they are one name. With the extension, the last piece of the
path is the only one with a dot in it. So no stub's file lies above another one, where that one
would need a directory.

In a file tree without links this means that the stubs of any classes with different names can be
written in any order, with what success each of them would have alone.
-/
namespace JavaStubs.Stubs

open Files JavaStubs.Path
open Files.FileTree (Grows Writable)

section

variable {base : Path} {name other : String}

theorem path_ofDotted (file : StubFile) (base : Path) (h : Names.IsDotted name) :
    ({ file with stub := ofDotted name } : StubFile).path base = stubPath base name := by
  rw [StubFile.path, StubFile.relativePath, append_ofDotted h, stubPath]

theorem same_stubPath (hname : Names.IsDotted name) (hother : Names.IsDotted other)
    (h : (stubPath base name).same (stubPath base other) = true) : name = other := by
  rw [same, beq_iff_eq, stubPath, stubPath, components_join_stubWay base hname,
    components_join_stubWay base hother] at h
  have hway := List.map_injective_iff.mpr (fun _ _ => Component.name.inj)
    (List.append_cancel_left h)
  exact stubWay_injective hway

/-- What lies above a stub's file are packages, and none of them is called as a file is. -/
theorem not_isBelow_stubPath (base : Path) (hname : Names.IsDotted name)
    (hother : Names.IsDotted other) :
    (stubPath base name).isBelow (stubPath base other) = false := by
  rw [Bool.eq_false_iff]
  intro hbelow
  obtain ⟨rest, hrest, hcomponents⟩ := isBelow_iff.mp hbelow
  have hfront := congrArg List.dropLast hcomponents
  rw [dropLast_components_stubPath base hname, List.dropLast_append_of_ne_nil hrest, stubPath,
    components_join_stubWay base hother, List.append_assoc] at hfront
  have hfile : Component.name (stubFileName other) ∈ (packages name).map Component.name := by
    rw [List.append_cancel_left hfront]
    simp [stubWay]
  obtain ⟨piece, hpiece, heq⟩ := List.mem_map.mp hfile
  obtain rfl := Component.name.inj heq
  exact stubFileName_not_mem_packages name other hpiece

/-- What was done first decides the tree for the others. -/
theorem mapM_cons_apply {α β : Type} (f : α → StateM FileTree β) (a : α) (rest : List α)
    (tree : FileTree) :
    (a :: rest).mapM f tree =
      ((f a tree).1 :: (rest.mapM f (f a tree).2).1, (rest.mapM f (f a tree).2).2) := by
  rw [List.mapM_cons]
  rfl

theorem mapM_congr {α β : Type} {f g : α → StateM FileTree β} {l : List α}
    (h : ∀ a ∈ l, f a = g a) : l.mapM f = l.mapM g := by
  induction l with
  | nil => rfl
  | cons a rest ih =>
    rw [List.forall_mem_cons] at h
    rw [List.mapM_cons, List.mapM_cons, h.1, ih h.2]

theorem isOk_iff {result : Outcome Unit} : result.isOk = true ↔ result = .ok () := by
  cases result <;> simp [Except.isOk, Except.toBool]

section

variable {tree current : FileTree} (hplain : tree.Plain)
  (hhome : tree.entry? tree.workingDirectory = some .directory)

include hplain hhome

/-- A stub that was written stays while stubs of other classes are written: induction over these. -/
theorem find_writeStubs {text : String → String} {names : List String}
    (hnames : ∀ n ∈ names, Names.IsDotted n) (hname : Names.IsDotted name) (h : name ∉ names)
    {found : Place × Entry} (hfound : tree.find (stubPath base name) = .ok found) :
    (names.mapM (m := StateM FileTree) (fun n => writeFile (stubPath base n) (text n))
      tree).2.find (stubPath base name) = .ok found := by
  induction names generalizing tree with
  | nil => exact hfound
  | cons first rest ih =>
    rw [List.forall_mem_cons] at hnames
    rw [List.mem_cons, not_or] at h
    obtain ⟨hafter, hgrows⟩ :=
      FileTree.confined_writeFile (stubPath base first) (text first) tree hplain rfl hhome
    have hkept := find_writeFile_other hplain hhome hname hnames.1 h.1 (text first) hfound
    rw [mapM_cons_apply]
    generalize writeFile (m := StateM FileTree) (stubPath base first) (text first) tree = written
      at hafter hgrows hkept ⊢
    exact ih hafter (hgrows.home_directory hhome) hnames.2 h.2 hkept

/-- Where the same stubs can be written as in a first tree, each is written or fails as it does
alone in the first tree, and those that are written hold their text in the end: induction over the
stubs, since writing one of them keeps what can be written of the others. -/
theorem writeStubs_alone {text : String → String} {names : List String}
    (hnames : ∀ n ∈ names, Names.IsDotted n ∧ text n ≠ "") (hdistinct : names.Nodup)
    (hplain' : current.Plain)
    (hhome' : current.entry? current.workingDirectory = some .directory)
    (hsame : ∀ n ∈ names, current.Writable (stubPath base n) ↔ tree.Writable (stubPath base n)) :
    let write := fun n => writeFile (m := StateM FileTree) (stubPath base n) (text n)
    let run := names.mapM write current
    run.1.map (·.isOk) = names.map (fun n => (write n tree).1.isOk) ∧
      ∀ n ∈ names, (write n tree).1 = .ok () →
        run.2.readText (stubPath base n) = .ok (text n) := by
  intro write run
  induction names generalizing current with
  | nil => exact ⟨rfl, by simp⟩
  | cons first rest ih =>
    rw [List.forall_mem_cons] at hnames hsame
    rw [List.nodup_cons] at hdistinct
    obtain ⟨⟨hfirst, htext⟩, hrest⟩ := hnames
    have hlast := isName_stubFileName first
    have hpath : (stubPath base first).pieces = _ := pieces_stubPath hfirst
    have hwritten : (write first current).1 = .ok () ↔ (write first tree).1 = .ok () :=
      (FileTree.writeFile_iff hplain' hhome' hlast hpath htext).trans
        (hsame.1.trans (FileTree.writeFile_iff hplain hhome hlast hpath htext).symm)
    have hstub : (write first current).1 = .ok () →
        (write first current).2.find (stubPath base first) =
          .ok (current.placeOf (stubPath base first), .file (text first).toUTF8) :=
      FileTree.find_of_writeFile hplain' hhome' hlast hpath htext
    obtain ⟨hafter, hgrows⟩ : (write first current).2.Plain ∧
        Grows _ current (write first current).2 :=
      FileTree.confined_writeFile (stubPath base first) (text first) current hplain' rfl hhome'
    have hothers : ∀ n ∈ rest, (write first current).2.Writable (stubPath base n) ↔
        tree.Writable (stubPath base n) := fun n hn =>
      (writable_writeFile_iff hplain' hhome' (hrest n hn).1 hfirst
        (fun heq => hdistinct.1 (heq.symm ▸ hn)) (text first)).trans (hsame.2 n hn)
    have hrun : run = _ := mapM_cons_apply write first rest current
    generalize write first current = written at hwritten hstub hafter hgrows hothers hrun
    have hhome'' := hgrows.home_directory hhome'
    obtain ⟨hresults, hfound⟩ := ih hrest hdistinct.2 hafter hhome'' hothers
    have hresult : written.1.isOk = (write first tree).1.isOk :=
      Bool.eq_iff_iff.mpr (isOk_iff.trans (hwritten.trans isOk_iff.symm))
    rw [hrun, List.map_cons, List.map_cons, hresults, hresult, List.forall_mem_cons]
    refine ⟨rfl, fun hok => ?_, hfound⟩
    exact FileTree.readText_of_find (find_writeStubs hafter hhome'' (fun n hn => (hrest n hn).1)
      hfirst hdistinct.1 (hstub (hwritten.mpr hok)))

end

end

/-- Of two different names with proper segments neither the stubs' paths nor the files' paths under
an output directory are the same, and no file lies above the other one. So in a file tree without
links the stubs of any classes with different names are written in any order with the success that
each of them has alone, and what was written stays. A stub has some text; only a text without bytes
goes into a file that takes none. -/
theorem stubs_apart (file : String → StubFile) (base : Path) :
    let stub := fun name => { file name with stub := ofDotted name }
    let write := fun name =>
      writeFile (m := StateM FileTree) ((stub name).path base) (stub name).text
    (∀ name other, Names.IsDotted name → Names.IsDotted other →
      ((ofDotted name).same (ofDotted other) = true → name = other) ∧
      (((stub name).path base).same ((stub other).path base) = true → name = other) ∧
      ((stub name).path base).isBelow ((stub other).path base) = false) ∧
    ∀ names : List String, (∀ n ∈ names, Names.IsDotted n ∧ (stub n).text ≠ "") → names.Nodup →
      ∀ tree : FileTree, tree.Plain → tree.entry? tree.workingDirectory = some .directory →
        let run := names.mapM write tree
        run.1.map (·.isOk) = names.map (fun n => (write n tree).1.isOk) ∧
        ∀ n ∈ names, (write n tree).1 = .ok () →
          run.2.readText ((stub n).path base) = .ok (stub n).text := by
  intro stub write
  have hpath : ∀ {n}, Names.IsDotted n → (stub n).path base = stubPath base n :=
    fun hn => path_ofDotted (file _) base hn
  refine ⟨fun name other hname hother => ⟨?_, ?_, ?_⟩, ?_⟩
  · intro h
    exact components_ofDotted_inj hname hother (beq_iff_eq.mp h)
  · rw [hpath hname, hpath hother]
    exact same_stubPath hname hother
  · rw [hpath hname, hpath hother]
    exact not_isBelow_stubPath base hname hother
  · intro names hnames hdistinct tree hplain hhome run
    have hwrite : ∀ n ∈ names, write n =
        writeFile (m := StateM FileTree) (stubPath base n) (stub n).text := fun n hn =>
      congrArg (fun path => writeFile (m := StateM FileTree) path (stub n).text)
        (hpath (hnames n hn).1)
    obtain ⟨hresults, hfound⟩ := @writeStubs_alone base tree tree hplain hhome _ names hnames
      hdistinct hplain hhome fun _ _ => Iff.rfl
    refine ⟨?_, fun n hn hok => ?_⟩
    · rw [show run = _ from congrFun (mapM_congr hwrite) tree, hresults]
      exact List.map_congr_left fun n hn => by rw [hwrite n hn]
    · rw [show run = _ from congrFun (mapM_congr hwrite) tree, hpath (hnames n hn).1]
      exact hfound n hn ((congrArg (fun w => (w tree).1) (hwrite n hn)).symm.trans hok)

/-- In an empty tree nothing stands in the way. -/
theorem writable_of_no_entries {home : Place} {path : Path} (husable : FileTree.Usable path)
    (hshort : ∀ name, .name name ∈ path.components → name.utf8ByteSize ≤ FileTree.nameLimit)
    (hplace : reach home path.components ≠ [])
    (hapart : reach home path.components ∉ visited home path.components.dropLast) :
    (⟨Table.empty, home⟩ : FileTree).Writable path := by
  have hvacant : ∀ place, place ≠ [] → FileTree.entry? ⟨Table.empty, home⟩ place = none :=
    fun place hne => by simp [FileTree.entry?, hne]
  refine ⟨husable, ⟨fun place _ => ?_, fun name hname => ?_⟩, hshort, hapart,
    .inl (hvacant _ hplace)⟩
  · by_cases hroot : place = []
    · exact .inr (hroot ▸ rfl)
    · exact .inl (hvacant place hroot)
  · exact hshort name ((List.dropLast_sublist _).subset hname)

/-- A file for each class of a name. -/
def shapes (name : String) : StubFile := { stub := .empty, body := "class " ++ name }

/-- Two names that differ by what looks like the extension. -/
def shapeNames : List String := ["geo.Shape", "geo.Shape.java"]

theorem isDotted_shapeNames : ∀ n ∈ shapeNames, Names.IsDotted n := by decide +kernel

theorem writable_shapeNames : ∀ n ∈ shapeNames,
    (⟨Table.empty, []⟩ : FileTree).Writable (stubPath (ofString "out") n) := by
  intro n hn
  have husable : ∀ n ∈ shapeNames, FileTree.Usable (stubPath (ofString "out") n) := by
    have hchecked : ∀ n ∈ shapeNames, '\x00' ∉ (stubPath (ofString "out") n).text.toList ∧
        (stubPath (ofString "out") n).text ≠ "" ∧
        (stubPath (ofString "out") n).text.utf8ByteSize < FileTree.pathLimit := by decide +kernel
    exact fun n hn => ⟨(hchecked n hn).1, (hchecked n hn).2.1, (hchecked n hn).2.2⟩
  have hcomponents : ∀ n ∈ shapeNames, (stubPath (ofString "out") n).components =
      ("out" :: stubWay n).map .name := by decide +kernel
  have hsizes : ∀ n ∈ shapeNames, ∀ piece ∈ "out" :: stubWay n,
      piece.utf8ByteSize ≤ FileTree.nameLimit := by decide +kernel
  have hplace : ∀ n ∈ shapeNames, reach [] (stubPath (ofString "out") n).components ≠ [] ∧
      reach [] (stubPath (ofString "out") n).components ∉
        visited [] (stubPath (ofString "out") n).components.dropLast := by decide +kernel
  refine writable_of_no_entries (husable n hn) (fun name hname => ?_) (hplace n hn).1
    (hplace n hn).2
  rw [hcomponents n hn] at hname
  obtain ⟨piece, hpiece, heq⟩ := List.mem_map.mp hname
  exact Component.name.inj heq ▸ hsizes n hn piece hpiece

theorem shapes_apart :
    let out := ofString "out"
    let stub := fun name => { shapes name with stub := ofDotted name }
    let write := fun name =>
      writeFile (m := StateM FileTree) ((stub name).path out) (stub name).text
    let run := shapeNames.mapM write ⟨Table.empty, []⟩
    (∀ n ∈ shapeNames, Names.IsDotted n ∧ (stub n).text ≠ "") ∧ shapeNames.Nodup ∧
      ((stub "geo.Shape").path out).text = "out/geo/Shape.java" ∧
      ((stub "geo.Shape.java").path out).text = "out/geo/Shape/java.java" ∧
      ((stub "geo.Shape.java").path out).isBelow ((stub "geo.Shape").path out) = false ∧
      run.1.map (·.isOk) = [true, true] ∧
      ∀ n ∈ shapeNames, run.2.readText ((stub n).path out) = .ok (stub n).text := by
  have htext : ∀ n ∈ shapeNames, ({ shapes n with stub := ofDotted n } : StubFile).text ≠ "" := by
    decide +kernel
  have hnames : ∀ n ∈ shapeNames, _ ∧ _ := fun n hn => ⟨isDotted_shapeNames n hn, htext n hn⟩
  have hfirst : ((({ shapes "geo.Shape" with stub := ofDotted "geo.Shape" } : StubFile).path
    (ofString "out")).text = "out/geo/Shape.java") := by decide +kernel
  have hsecond : ((({ shapes "geo.Shape" with stub := ofDotted "geo.Shape.java" } : StubFile).path
    (ofString "out")).text = "out/geo/Shape/java.java") := by decide +kernel
  have hplain := FileTree.plain_empty []
  intro out stub write run
  have hwritten : ∀ n ∈ shapeNames, (write n ⟨Table.empty, []⟩).1 = .ok () := by
    intro n hn
    have hdotted := isDotted_shapeNames n hn
    have hpath : (stub n).path out = stubPath out n := path_ofDotted (shapes n) out hdotted
    simp only [write, hpath]
    exact FileTree.writeFile_of_writable hplain rfl (isName_stubFileName n)
      (pieces_stubPath hdotted) (writable_shapeNames n hn) _
  obtain ⟨hpair, hset⟩ := stubs_apart shapes out
  obtain ⟨-, -, hbelow⟩ := hpair "geo.Shape.java" "geo.Shape"
    (isDotted_shapeNames _ (by simp [shapeNames])) (isDotted_shapeNames _ (by simp [shapeNames]))
  obtain ⟨hresults, hfound⟩ := hset shapeNames hnames (by decide) _ hplain rfl
  refine ⟨hnames, by decide, hfirst, hsecond, hbelow, ?_, fun n hn => hfound n hn (hwritten n hn)⟩
  refine hresults.trans ?_
  have hok : ∀ n ∈ shapeNames, (write n ⟨Table.empty, []⟩).1.isOk = true :=
    fun n hn => isOk_iff.mpr (hwritten n hn)
  rw [List.map_congr_left hok]
  rfl

end JavaStubs.Stubs
