import JavaStubs.Command.Run
import JavaStubs.Proofs.FileChanges
import JavaStubs.Proofs.Outcomes

/-!
# Generated files

A generation tries the classes one after the other. Trying a class touches only the place of its
stub, and classes with different names have different places. So a stub that was written stays, and
only a class with the same name writes it again, which then succeeds: in the end the file holds what
the last of them was printed as. A dry run foretells all this.
-/
namespace JavaStubs.Stubs

open Files JavaStubs.Path
open Files.FileTree (Plain Confined Grows Reaches)

/-- The path under which the stub of a class is written. -/
def stubPath (base : Path) (name : String) : Path := base.join ⟨stubWay name⟩

/-- The path of a stub relative to the output directory, as it is shown. -/
def shownPath (name : String) : String := (⟨stubWay name⟩ : Path).text

section

variable {base : Path} {name other : String} {tree : FileTree}

theorem pieces_stubPath (h : Names.IsDotted name) :
    (stubPath base name).pieces = (base.stem ++ packages name) ++ [stubFileName name] := by
  rw [stubPath, join_stubWay base h, stubWay, List.append_assoc]

theorem placeOf_stubPath (h : Names.IsDotted name) :
    tree.placeOf (stubPath base name) = tree.placeOf base ++ stubWay name := by
  rw [FileTree.placeOf, stubPath, components_join_stubWay base h, reach_append,
    Files.reach_names, FileTree.placeOf]

theorem ofString_shownPath (h : Names.IsDotted name) :
    ofString (shownPath name) = ⟨stubWay name⟩ :=
  Written.ofString_text ⟨stubWay_ne_nil name, absent_stubWay h⟩

theorem shownPath_inj (h : Names.IsDotted name) (h' : Names.IsDotted other)
    (heq : shownPath name = shownPath other) : name = other := by
  have hpath := congrArg ofString heq
  rw [ofString_shownPath h, ofString_shownPath h'] at hpath
  exact stubWay_injective (Path.mk.inj hpath)

/-- What a stub's path leads to is still there after the stub of another class was written. -/
theorem find_writeFile_other (hplain : tree.Plain)
    (hhome : tree.entry? tree.workingDirectory = some .directory) (hname : Names.IsDotted name)
    (hother : Names.IsDotted other) (hne : name ≠ other) (content : String)
    {found : Place × Entry} (hfound : tree.find (stubPath base name) = .ok found) :
    (writeFile (m := StateM FileTree) (stubPath base other) content tree).2.find
      (stubPath base name) = .ok found := by
  obtain ⟨hafter, hgrows⟩ :=
    FileTree.confined_writeFile (stubPath base other) content tree hplain rfl hhome
  have hlast := isName_stubFileName name
  obtain ⟨-, hplace, -⟩ :=
    (FileTree.find_concat_iff hplain.linkFree hlast (pieces_stubPath hname)).mp hfound
  refine hgrows.find_keeps hplain.linkFree hafter.linkFree hlast (pieces_stubPath hname) hfound ?_
  change found.1 ≠ tree.placeOf (stubPath base other)
  rw [hplace, placeOf_stubPath hname, placeOf_stubPath hother]
  exact fun heq => hne (stubWay_injective (List.append_cancel_left heq))

end

/-- A class that a generation tries to write. -/
structure Attempt where
  decl : ClassDecl
  /-- What a dry run shows of the class. -/
  preview : Preview
  /-- Why the stub could not be written, if so. -/
  failure : Option FileError

/-- Whether the stub was written. -/
def Attempt.succeeded (attempt : Attempt) : Bool := attempt.failure.isNone

/-- The path and the content that a dry run shows. -/
def Attempt.file (attempt : Attempt) : String × String :=
  (attempt.preview.path, attempt.preview.content)

/-- What a report says of a stub that could not be written. -/
def Attempt.remark? (base : Path) (attempt : Attempt) : Option Report.Remark :=
  attempt.failure.map fun cause =>
    ⟨attempt.decl.name,
      WriteError.description ⟨base.join (ofString attempt.preview.path), cause⟩⟩

/-- A block has a header, so its text is not empty. -/
theorem text_addAll_block_ne_empty (out : Layout) (header : String) (body : List Fragment) :
    (out.addAll [.block header body]).text ≠ "" := by
  rw [Layout.addAll_cons, Layout.addAll_nil, Layout.add]
  simp [Layout.addLine]

namespace Generator

variable {g : Generator} {imports : ImportSet} {decl : ClassDecl} {tree : FileTree}

/-- The stub of a class is never empty. -/
theorem text_stubFile_ne_empty (hc : Conservative g.printer.transform) (imports : ImportSet)
    (h : g.decision decl = .render) : (g.stubFile imports decl).1.text ≠ "" := by
  have hbody : (g.stubFile imports decl).1.body =
      (Layout.empty.addAll (g.printer.print decl).1).text := rfl
  have hblock := Printer.print_named hc (isAnonymous_of_render h)
  have hne := text_addAll_block_ne_empty .empty (g.printer.header decl).text (g.printer.body decl)
  rw [← hblock, ← hbody] at hne
  unfold StubFile.text Layout.addText
  exact fun hempty => hne (String.append_eq_empty_iff.mp hempty).2

theorem preview_of_render (hc : Conservative g.printer.transform) (h : g.decision decl = .render)
    (hname : Names.IsDotted decl.name) :
    (g.preview imports decl).1 =
      some ⟨shownPath decl.name, (g.stubFile imports decl).1.text⟩ := by
  have hpath : (g.stubFile imports decl).1.relativePath = ⟨stubWay decl.name⟩ := by
    rw [StubFile.relativePath, stubFile_stub hc, append_ofDotted hname]
  simp only [preview, h]
  rw [hpath]
  rfl

theorem preview_of_skip {reason : Omission} (h : g.decision decl = .skip reason) :
    (g.preview imports decl).1 = none := by
  simp only [preview, h]

theorem attempt_of_skip {reason : Omission} (h : g.decision decl = .skip reason) :
    g.attempt (m := StateM FileTree) imports decl tree = (.ok (.skipped reason), tree) := by
  simp only [attempt, h]
  rfl

theorem attempt_of_render (hc : Conservative g.printer.transform) (h : g.decision decl = .render)
    (hname : Names.IsDotted decl.name) :
    g.attempt (m := StateM FileTree) imports decl tree =
      let path := stubPath g.settings.outputDirectory decl.name
      let written :=
        writeFile (m := StateM FileTree) path (g.stubFile imports decl).1.text tree
      (match written.1 with
        | .ok () => .ok (.written path)
        | .error cause => .error ⟨path, cause⟩, written.2) := by
  have hpath : (g.stubFile imports decl).1.path g.settings.outputDirectory =
      stubPath g.settings.outputDirectory decl.name := by
    rw [StubFile.path, StubFile.relativePath, stubFile_stub hc, append_ofDotted hname]
    rfl
  simp only [attempt, h, hpath, FileTree.bind_apply]
  cases (writeFile (m := StateM FileTree) (stubPath g.settings.outputDirectory decl.name)
    (g.stubFile imports decl).1.text tree).1 <;> rfl

/-- Where the stub of a class is there already, trying the class changes nothing but the stub. -/
theorem attempt_of_find (hc : Conservative g.printer.transform) (h : g.decision decl = .render)
    (hname : Names.IsDotted decl.name) (hplain : tree.Plain)
    (hhome : tree.entry? tree.workingDirectory = some .directory) {place : Place} {old : ByteArray}
    (hfound : tree.find (stubPath g.settings.outputDirectory decl.name) = .ok (place, .file old))
    (imports : ImportSet) :
    g.attempt (m := StateM FileTree) imports decl tree =
      (.ok (.written (stubPath g.settings.outputDirectory decl.name)),
        tree.put place (.file (g.stubFile imports decl).1.text.toUTF8)) := by
  rw [attempt_of_render hc h hname]
  simp only [FileTree.writeFile_of_find hplain hhome (isName_stubFileName decl.name)
    (pieces_stubPath hname) hfound]

theorem attemptAll_cons (imports : ImportSet) (decl : ClassDecl)
    (rest : List (ImportSet × ClassDecl)) (tree : FileTree) :
    g.attemptAll (m := StateM FileTree) ((imports, decl) :: rest) tree =
      let first := g.attempt (m := StateM FileTree) imports decl tree
      let others := g.attemptAll (m := StateM FileTree) rest first.2
      ((decl, first.1) :: others.1, others.2) := rfl

/-- Trying a class touches only the place of its stub. -/
theorem confined_attempt (hc : Conservative g.printer.transform) (home : Place)
    (imports : ImportSet) (hname : Names.IsDotted decl.name) :
    Confined home (fun place => g.decision decl = .render ∧
        place = reach home g.settings.outputDirectory.components ++ stubWay decl.name)
      (g.attempt (m := StateM FileTree) imports decl) := by
  intro tree hplain hhome hdirectory
  cases hd : g.decision decl with
  | skip reason =>
    rw [attempt_of_skip hd]
    exact ⟨hplain, Grows.refl _ _⟩
  | render =>
    rw [attempt_of_render hc hd hname]
    obtain ⟨hplain', hgrows⟩ := FileTree.confined_writeFile
      (stubPath g.settings.outputDirectory decl.name) (g.stubFile imports decl).1.text tree hplain
      hhome hdirectory
    refine ⟨hplain', hgrows.mono ?_⟩
    rintro place rfl
    rw [stubPath, components_join_stubWay _ hname, reach_append, reach_names]
    exact ⟨rfl, rfl⟩

/-- Trying classes touches only the places of their stubs. -/
theorem confined_attemptAll (hc : Conservative g.printer.transform) (home : Place)
    {placed : List (ImportSet × ClassDecl)} (hnames : ∀ x ∈ placed, Names.IsDotted x.2.name) :
    Confined home (fun place => ∃ x ∈ placed, g.decision x.2 = .render ∧
        place = reach home g.settings.outputDirectory.components ++ stubWay x.2.name)
      (g.attemptAll (m := StateM FileTree) placed) := by
  induction placed with
  | nil => exact Confined.pure _
  | cons first rest ih =>
    obtain ⟨imports, decl⟩ := first
    rw [List.forall_mem_cons] at hnames
    rw [attemptAll]
    refine ((confined_attempt hc home imports hnames.1).mono ?_).bind fun result =>
      ((ih hnames.2).mono ?_).bind fun _ => Confined.pure _
    · exact fun place hp => ⟨_, List.mem_cons_self, hp⟩
    · rintro place ⟨x, hx, hp⟩
      exact ⟨x, List.mem_cons_of_mem _ hx, hp⟩

/-- The paths and contents that a dry run shows. -/
def filesOf (g : Generator) (placed : List (ImportSet × ClassDecl)) : List (String × String) :=
  (placed.filterMap fun (imports, decl) => (g.preview imports decl).1).map fun file =>
    (file.path, file.content)

/-- The last content that a dry run shows for a path. -/
def lastContent? (g : Generator) (placed : List (ImportSet × ClassDecl)) (path : String) :
    Option String :=
  (g.filesOf placed).reverse.lookup path

variable {placed : List (ImportSet × ClassDecl)}

theorem filesOf_cons_of_skip {reason : Omission} (h : g.decision decl = .skip reason) :
    g.filesOf ((imports, decl) :: placed) = g.filesOf placed := by
  simp [filesOf, preview_of_skip h]

theorem filesOf_cons_of_render (hc : Conservative g.printer.transform)
    (h : g.decision decl = .render) (hname : Names.IsDotted decl.name) :
    g.filesOf ((imports, decl) :: placed) =
      (shownPath decl.name, (g.stubFile imports decl).1.text) :: g.filesOf placed := by
  simp [filesOf, preview_of_render hc h hname]

/-- What is shown later counts. -/
theorem lastContent?_cons (first : ImportSet × ClassDecl) (path : String) :
    g.lastContent? (first :: placed) path =
      (g.lastContent? placed path).or (g.lastContent? [first] path) := by
  have hfiles : g.filesOf (first :: placed) = g.filesOf [first] ++ g.filesOf placed := by
    rw [filesOf, filesOf, filesOf, ← List.map_append, ← List.filterMap_append,
      List.singleton_append]
  rw [lastContent?, hfiles, List.reverse_append, List.lookup_append, lastContent?, lastContent?]

theorem lastContent?_singleton_of_skip {reason : Omission} (h : g.decision decl = .skip reason)
    (path : String) : g.lastContent? [(imports, decl)] path = none := by
  rw [lastContent?, filesOf_cons_of_skip h]
  rfl

theorem lastContent?_singleton_of_render (hc : Conservative g.printer.transform)
    (h : g.decision decl = .render) (hname : Names.IsDotted decl.name) (path : String) :
    g.lastContent? [(imports, decl)] path =
      if path = shownPath decl.name then some (g.stubFile imports decl).1.text else none := by
  rw [lastContent?, filesOf_cons_of_render hc h hname]
  split <;> rename_i heq
  · simp [heq, filesOf]
  · simp [List.lookup_cons, beq_eq_false_iff_ne.mpr heq, filesOf]

/-- A file that a stub's path leads to is still there after a class was tried; it holds what the
class was printed as, if the class has that name. -/
theorem find_attempt (hc : Conservative g.printer.transform) (hplain : tree.Plain)
    (hhome : tree.entry? tree.workingDirectory = some .directory) (imports : ImportSet)
    (hdecl : Names.IsDotted decl.name) {name : String} (hname : Names.IsDotted name)
    {place : Place} {bytes : ByteArray}
    (hfound : tree.find (stubPath g.settings.outputDirectory name) = .ok (place, .file bytes)) :
    (g.attempt (m := StateM FileTree) imports decl tree).2.find
        (stubPath g.settings.outputDirectory name) =
      .ok (place, .file
        (((g.lastContent? [(imports, decl)] (shownPath name)).map String.toUTF8).getD bytes)) := by
  cases hd : g.decision decl with
  | skip reason =>
    rw [lastContent?_singleton_of_skip hd, attempt_of_skip hd]
    exact hfound
  | render =>
    rw [lastContent?_singleton_of_render hc hd hdecl]
    have hpath : (stubPath g.settings.outputDirectory name).pieces = _ := pieces_stubPath hname
    have hlast := isName_stubFileName name
    obtain ⟨-, rfl, -⟩ := (FileTree.find_concat_iff hplain.linkFree hlast hpath).mp hfound
    by_cases hsame : decl.name = name
    · have hagain := FileTree.writeFile_of_find hplain hhome hlast hpath hfound
        (g.stubFile imports decl).1.text
      rw [if_pos (by rw [hsame]), attempt_of_render hc hd hdecl, hsame]
      exact FileTree.find_of_writeFile hplain hhome hlast hpath
        (text_stubFile_ne_empty hc imports hd) (congrArg Prod.fst hagain)
    · have hother : shownPath name ≠ shownPath decl.name :=
        fun heq => hsame (shownPath_inj hname hdecl heq).symm
      rw [if_neg hother, attempt_of_render hc hd hdecl]
      exact find_writeFile_other hplain hhome hname hdecl (Ne.symm hsame) _ hfound

/-- A file that a stub's path leads to is still there after classes were tried; it holds what the
last class with that name was printed as, if there is one. -/
theorem find_attemptAll (hc : Conservative g.printer.transform) (hplain : tree.Plain)
    (hhome : tree.entry? tree.workingDirectory = some .directory)
    (hnames : ∀ x ∈ placed, Names.IsDotted x.2.name) {name : String} (hname : Names.IsDotted name)
    {place : Place} {bytes : ByteArray}
    (hfound : tree.find (stubPath g.settings.outputDirectory name) = .ok (place, .file bytes)) :
    (g.attemptAll (m := StateM FileTree) placed tree).2.find
        (stubPath g.settings.outputDirectory name) =
      .ok (place, .file
        (((g.lastContent? placed (shownPath name)).map String.toUTF8).getD bytes)) := by
  induction placed generalizing tree bytes with
  | nil => exact hfound
  | cons first rest ih =>
    obtain ⟨imports, decl⟩ := first
    rw [List.forall_mem_cons] at hnames
    obtain ⟨hplain', hgrows⟩ := confined_attempt hc _ imports hnames.1 tree hplain rfl hhome
    have hkept := find_attempt hc hplain hhome imports hnames.1 hname hfound
    rw [attemptAll_cons, lastContent?_cons]
    refine (ih hplain' (hgrows.home_directory hhome) hnames.2 hkept).trans ?_
    cases g.lastContent? rest (shownPath name) <;> rfl

/-- What a dry run shows of a class, with how the real run went. -/
def Describes (g : Generator) (placed : List (ImportSet × ClassDecl))
    (run : List (ClassDecl × GenerateResult) × FileTree) (attempts : List Attempt) : Prop :=
  let base := g.settings.outputDirectory
  let report := reportOn base (named run.1)
  attempts.map (·.decl) = (placed.map Prod.snd).filter (g.decision · = .render) ∧
    g.filesOf placed = attempts.map (·.file) ∧
    report.written = (attempts.filter (·.succeeded)).map (·.preview.path) ∧
    report.failures = attempts.filterMap (·.remark? base) ∧
    ∀ a ∈ attempts, a.succeeded = true → ∃ content place,
      g.lastContent? placed a.preview.path = some content ∧
      run.2.find (base.join (ofString a.preview.path)) = .ok (place, .file content.toUTF8)

theorem describes_cons_of_skip {reason : Omission} (h : g.decision decl = .skip reason)
    {run : List (ClassDecl × GenerateResult) × FileTree} {attempts : List Attempt}
    (hrun : g.Describes placed run attempts) :
    g.Describes ((imports, decl) :: placed) ((decl, .ok (.skipped reason)) :: run.1, run.2)
      attempts := by
  obtain ⟨hdecls, hfiles, hwritten, hfailures, hfound⟩ := hrun
  rw [(reportOn_eq _ _).1] at hwritten
  rw [(reportOn_eq _ _).2] at hfailures
  refine ⟨?_, ?_, ?_, ?_, ?_⟩
  · simp [hdecls, h]
  · rw [filesOf_cons_of_skip h, hfiles]
  · rw [(reportOn_eq _ _).1, ← hwritten]
    simp [named, writtenPath?]
  · rw [(reportOn_eq _ _).2, ← hfailures]
    simp [named, writeError?]
  · intro a ha hok
    rw [lastContent?_cons, lastContent?_singleton_of_skip h, Option.or_none]
    exact hfound a ha hok

/-- What a dry run shows of a class, with how trying it went. -/
def attemptOf (g : Generator) (imports : ImportSet) (decl : ClassDecl)
    (failure : Option FileError) : Attempt :=
  ⟨decl, ⟨shownPath decl.name, (g.stubFile imports decl).1.text⟩, failure⟩

theorem describes_cons_of_render (hc : Conservative g.printer.transform)
    (h : g.decision decl = .render) (hname : Names.IsDotted decl.name)
    {run : List (ClassDecl × GenerateResult) × FileTree} {attempts : List Attempt}
    (hrun : g.Describes placed run attempts) (failure : Option FileError)
    (hfound : failure = none → ∃ content place,
      g.lastContent? ((imports, decl) :: placed) (shownPath decl.name) = some content ∧
      run.2.find (stubPath g.settings.outputDirectory decl.name) =
        .ok (place, .file content.toUTF8)) :
    let path := stubPath g.settings.outputDirectory decl.name
    let result : GenerateResult :=
      match failure with
      | none => .ok (.written path)
      | some cause => .error ⟨path, cause⟩
    g.Describes ((imports, decl) :: placed) ((decl, result) :: run.1, run.2)
      (g.attemptOf imports decl failure :: attempts) := by
  intro path result
  obtain ⟨hdecls, hfiles, hwritten, hfailures, hothers⟩ := hrun
  rw [(reportOn_eq _ _).1] at hwritten
  rw [(reportOn_eq _ _).2] at hfailures
  have hshown := relativeText_join g.settings.outputDirectory hname
  have hpath := ofString_shownPath hname
  refine ⟨?_, ?_, ?_, ?_, ?_⟩
  · simp [hdecls, h, attemptOf]
  · rw [filesOf_cons_of_render hc h hname, hfiles]
    rfl
  · rw [(reportOn_eq _ _).1]
    cases failure with
    | none =>
      have hrelative : relativeText g.settings.outputDirectory path = shownPath decl.name := hshown
      simpa [named, writtenPath?, result, hrelative, attemptOf, Attempt.succeeded] using hwritten
    | some cause =>
      simpa [named, writtenPath?, result, attemptOf, Attempt.succeeded] using hwritten
  · rw [(reportOn_eq _ _).2]
    cases failure with
    | none => simpa [named, writeError?, result, attemptOf, Attempt.remark?] using hfailures
    | some cause =>
      have hjoin : g.settings.outputDirectory.join (ofString (shownPath decl.name)) = path := by
        rw [hpath]
        rfl
      simpa [named, writeError?, result, attemptOf, Attempt.remark?, hjoin] using hfailures
  · rw [List.forall_mem_cons]
    refine ⟨?_, ?_⟩
    · intro hok
      obtain ⟨content, place, hlast, hfile⟩ := hfound (Option.isNone_iff_eq_none.mp hok)
      exact ⟨content, place, hlast, by rw [attemptOf, hpath]; exact hfile⟩
    · intro a ha hok
      obtain ⟨content, place, hlast, hfile⟩ := hothers a ha hok
      refine ⟨content, place, ?_, hfile⟩
      rw [lastContent?_cons, hlast, Option.some_or]

/-- A run has its attempts: induction over the classes, since a stub that the first of them writes
is still there after the others were tried. -/
theorem exists_attempts (hc : Conservative g.printer.transform) (hplain : tree.Plain)
    (hhome : tree.entry? tree.workingDirectory = some .directory)
    (hnames : ∀ x ∈ placed, Names.IsDotted x.2.name) :
    ∃ attempts, g.Describes placed (g.attemptAll (m := StateM FileTree) placed tree) attempts := by
  induction placed generalizing tree with
  | nil => exact ⟨[], rfl, rfl, rfl, rfl, by simp⟩
  | cons first rest ih =>
    obtain ⟨imports, decl⟩ := first
    rw [List.forall_mem_cons] at hnames
    obtain ⟨hplain', hgrows⟩ := confined_attempt hc _ imports hnames.1 tree hplain rfl hhome
    have hhome' := hgrows.home_directory hhome
    obtain ⟨attempts, hattempts⟩ := ih hplain' hhome' hnames.2
    rw [attemptAll_cons]
    cases hd : g.decision decl with
    | skip reason =>
      rw [attempt_of_skip hd] at hattempts ⊢
      exact ⟨attempts, describes_cons_of_skip hd hattempts⟩
    | render =>
      have hpath : (stubPath g.settings.outputDirectory decl.name).pieces = _ :=
        pieces_stubPath hnames.1
      have hfound := FileTree.find_of_writeFile hplain hhome (isName_stubFileName decl.name) hpath
        (text_stubFile_ne_empty hc imports hd)
      have hkept := @find_attemptAll g _ rest hc hplain' hhome' hnames.2 decl.name hnames.1
      rw [attempt_of_render hc hd hnames.1] at hattempts hkept ⊢
      simp only at hattempts hkept ⊢
      generalize writeFile (m := StateM FileTree) (stubPath g.settings.outputDirectory decl.name)
        (g.stubFile imports decl).1.text tree = written at hattempts hkept hfound ⊢
      obtain ⟨outcome, after⟩ := written
      cases outcome with
      | error cause =>
        exact ⟨_, describes_cons_of_render hc hd hnames.1 hattempts (some cause) fun hnone =>
          absurd hnone (Option.some_ne_none cause)⟩
      | ok _ =>
        refine ⟨_, describes_cons_of_render hc hd hnames.1 hattempts none fun _ => ?_⟩
        have hfinal := hkept (hfound rfl)
        rw [Option.getD_map] at hfinal
        refine ⟨_, _, ?_, hfinal⟩
        rw [lastContent?_cons, lastContent?_singleton_of_render hc hd hnames.1, if_pos rfl,
          Option.or_some]

end Generator

/-- A dry run leaves the files and the model as they are. It shows exactly the classes that the real
run tries, in order; those whose stubs can be written are reported under the path that it shows, and
in the end the file at that path holds the last content that it shows for it. -/
theorem dryRun_foretells (model : DeclarationModel) (settings : StubSettings)
    (hnames : ∀ decl ∈ model.topLevel, Names.IsDotted decl.name) (tree : FileTree)
    (hplain : tree.Plain) (hhome : tree.entry? tree.workingDirectory = some .directory) :
    let dry := previewModel model settings
    let real := generateModel (m := StateM FileTree) model settings tree
    dry.2 = model ∧
      (∀ request : Command.Request, request.dryRun = true →
        (∃ noGenerics resolved, request.task = .generate noGenerics resolved) →
        (request.perform (m := StateM FileTree) settings model tree).2 = tree) ∧
      ∃ (files : List (String × String)) (report : Report.Written) (attempts : List Attempt),
        dry.1.result = .preview files ∧ real.1.1.result = .written report ∧
        attempts.map (·.decl) = model.topLevel.filter (settings.decision · = .render) ∧
        files = attempts.map (·.file) ∧
        report.written = (attempts.filter (·.succeeded)).map (·.preview.path) ∧
        report.failures = attempts.filterMap (·.remark? settings.outputDirectory) ∧
        ∀ path ∈ report.written, ∃ content,
          files.reverse.lookup path = some content ∧
          real.2.readText (settings.outputDirectory.join (ofString path)) = .ok content := by
  intro dry real
  have hplaced : ∀ x ∈ model.placed, Names.IsDotted x.2.name := fun x hx =>
    hnames x.2 (DeclarationModel.mem_topLevel_of_mem_placed hx)
  have hreal : real = _ := congrFun (generateModel_eq (m := StateM FileTree) model settings) tree
  obtain ⟨attempts, hdecls, hfiles, hwritten, hfailures, hfound⟩ :=
    Generator.exists_attempts (g := modelGenerator model settings) (conservative_standard [])
      hplain hhome hplaced
  refine ⟨?_, ?_, _, _, attempts, ?_, ?_, ?_, hfiles, hwritten, hfailures, ?_⟩
  · exact congrArg Prod.snd (previewModel_eq model settings)
  · rintro request hdry ⟨noGenerics, resolved, htask⟩
    simp only [Command.Request.perform, htask, hdry]
    rfl
  · exact congrArg (·.1.result) (previewModel_eq model settings)
  · rw [hreal]
    rfl
  · rw [hdecls, model.map_snd_placed]
    rfl
  · intro path hpath
    rw [hwritten] at hpath
    obtain ⟨a, ha, rfl⟩ := List.mem_map.mp hpath
    obtain ⟨ha, hok⟩ := List.mem_filter.mp ha
    obtain ⟨content, place, hlast, hfile⟩ := hfound a ha hok
    refine ⟨content, hlast, ?_⟩
    rw [hreal]
    exact FileTree.readText_of_find hfile

/-- Two classes of one name, a class of another package, and one that gets no file. -/
def sketch : DeclarationModel :=
  { units :=
      [{ classes := [{ name := "geo.Pen" }, { name := "Ink" }] },
       { classes :=
          [{ name := "Ink", kind := .interface }, { name := "geo.Ink$1", nesting := .anonymous }] }] }

/-- A directory for stubs in which a file blocks a package. -/
def blocked : FileTree :=
  ((⟨Table.empty, []⟩ : FileTree).put ["out"] .directory).put ["out", "geo"]
    (.file "not a package".toUTF8)

theorem plain_blocked : blocked.Plain := by
  have hout := (FileTree.plain_put (FileTree.plain_empty []) (List.cons_ne_nil "out" []) rfl
    .directory nofun nofun).1
  exact (FileTree.plain_put hout (List.cons_ne_nil "out" ["geo"]) rfl
    (.file "not a package".toUTF8) nofun
    (by simp [FileTree.entry?, FileTree.put, Table.get?_put])).1

theorem sketch_foretold :
    (previewModel sketch { outputDirectory := ofString "out" }).2 = sketch ∧
      ∃ (files : List (String × String)) (report : Report.Written) (attempts : List Attempt),
        (previewModel sketch { outputDirectory := ofString "out" }).1.result = .preview files ∧
        (generateModel (m := StateM FileTree) sketch { outputDirectory := ofString "out" }
          blocked).1.1.result = .written report ∧
        attempts.map (·.decl.name) = ["geo.Pen", "Ink", "Ink"] ∧
        files = attempts.map (·.file) ∧
        report.written = (attempts.filter (·.succeeded)).map (·.preview.path) ∧
        ∀ path ∈ report.written, ∃ content,
          files.reverse.lookup path = some content ∧
          (generateModel (m := StateM FileTree) sketch { outputDirectory := ofString "out" }
            blocked).2.readText ((ofString "out").join (ofString path)) = .ok content := by
  obtain ⟨hmodel, -, files, report, attempts, hdry, hreal, hdecls, hfiles, hwritten, -, hfound⟩ :=
    dryRun_foretells sketch { outputDirectory := ofString "out" } (by decide +kernel) blocked
      plain_blocked rfl
  refine ⟨hmodel, files, report, attempts, hdry, hreal, ?_, hfiles, hwritten, hfound⟩
  have hnames := congrArg (List.map ClassDecl.name) hdecls
  rw [List.map_map] at hnames
  exact hnames

end JavaStubs.Stubs
