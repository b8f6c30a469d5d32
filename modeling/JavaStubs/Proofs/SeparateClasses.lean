import JavaStubs.Proofs.CleanedFiles
import JavaStubs.Proofs.Writability

/-!
# Classes do not meet

In one generation every class comes to what it comes to alone. The stub of one class never lies on
the way to another one: on the way stand packages, whose names have no dot, and a stub's file has
one. So trying a class neither blocks nor opens the way to another stub, and touches no other stub's
place. This holds even where the path of the output directory leads through a stub, since that stub
is never written.
-/
namespace JavaStubs.Stubs

open Files JavaStubs.Path
open Files.FileTree (Plain Grows Writable)

section

variable {home place : Place} {out : Path} {name other : String}

/-- No package is called as a stub's file. -/
theorem stubFileName_not_mem_packages (name other : String) :
    stubFileName other ∉ packages name := by
  intro hmem
  refine Text.not_mem_of_mem_splitAt (packages_subset name hmem) ?_
  simp [stubFileName]

theorem mem_visited_stubPath (h : Names.IsDotted name) :
    place ∈ visited home (stubPath out name).components.dropLast ↔
      place ∈ visited home out.components ∨
        ∃ front, front ≠ [] ∧ front <+: packages name ∧
          place = reach home out.components ++ front := by
  rw [dropLast_components_stubPath out h, visited_append, List.mem_append, mem_visited_names]

/-- A stub that lies on the way to any stub lies on the way to its own place. -/
theorem stub_on_own_way (h : Names.IsDotted name) (hother : Names.IsDotted other)
    (hplace : reach home out.components ++ stubWay other ∈
      visited home (stubPath out name).components.dropLast) :
    reach home out.components ++ stubWay other ∈
      visited home (stubPath out other).components.dropLast := by
  rcases (mem_visited_stubPath h).mp hplace with hout | ⟨front, -, hfront, heq⟩
  · exact (mem_visited_stubPath hother).mpr (.inl hout)
  · have hmem : stubFileName other ∈ front := by
      rw [← List.append_cancel_left heq]
      simp [stubWay]
    exact absurd (hfront.subset hmem) (stubFileName_not_mem_packages name other)

variable {tree after : FileTree}

/-- A file stays writable where its way stays clear and its own place stays as it is. -/
theorem writable_of_same {path : Path} (hwork : after.workingDirectory = tree.workingDirectory)
    (hway : ∀ place ∈ visited tree.workingDirectory path.components.dropLast,
      tree.Crossable place → after.Crossable place)
    (htarget : tree.placeOf path ∉ visited tree.workingDirectory path.components.dropLast →
      after.entry? (tree.placeOf path) = tree.entry? (tree.placeOf path))
    (h : tree.Writable path) : after.Writable path := by
  have hplace : after.placeOf path = tree.placeOf path := by
    rw [FileTree.placeOf, FileTree.placeOf, hwork]
  refine ⟨h.usable, ⟨?_, h.clear.short⟩, h.short, ?_, ?_⟩
  · rw [hwork]
    exact fun place hp => hway place hp (h.clear.vacant place hp)
  · rw [hplace, hwork]
    exact h.apart
  · rw [hplace, htarget h.apart]
    exact h.target

/-- A change that only touches what the stub of one class is written through does not change whether
the stub of another one can be written. -/
theorem writable_iff_of_other (h : Names.IsDotted name) (hother : Names.IsDotted other)
    (hne : other ≠ name)
    (hgrows : Grows (fun place => place = tree.placeOf (stubPath out other) ∧
      place ∉ visited tree.workingDirectory (stubPath out other).components.dropLast) tree after)
    (hfounds : ∀ place, after.entry? place = some .directory →
      tree.entry? place = some .directory ∨
        place ∈ visited tree.workingDirectory (stubPath out other).components.dropLast) :
    after.Writable (stubPath out name) ↔ tree.Writable (stubPath out name) := by
  have hwork := hgrows.workingDirectory
  have hway : ∀ place ∈ visited tree.workingDirectory (stubPath out name).components.dropLast,
      (after.Crossable place ↔ tree.Crossable place) := by
    intro place hp
    refine hgrows.crossable_iff ?_
    rintro ⟨rfl, hapart⟩
    rw [placeOf_stubPath hother] at hp hapart
    exact hapart (stub_on_own_way h hother hp)
  have htarget : tree.placeOf (stubPath out name) ∉
        visited tree.workingDirectory (stubPath out name).components.dropLast →
      after.entry? (tree.placeOf (stubPath out name)) =
        tree.entry? (tree.placeOf (stubPath out name)) := by
    intro hapart
    have huntouched : tree.placeOf (stubPath out name) ≠ tree.placeOf (stubPath out other) := by
      rw [placeOf_stubPath h, placeOf_stubPath hother]
      exact fun heq => hne (stubWay_injective (List.append_cancel_left heq)).symm
    rcases hgrows.untouched _ (fun htouched => huntouched htouched.1) with hsame | ⟨hnone, hmade⟩
    · exact hsame
    -- A directory that was made where this stub belongs would lie on the way to the other stub.
    · rcases hfounds _ hmade with hdirectory | hvisited
      · simp [hnone] at hdirectory
      · rw [placeOf_stubPath h] at hvisited hapart
        exact absurd (stub_on_own_way hother h hvisited) hapart
  refine ⟨writable_of_same hwork.symm ?_ ?_, writable_of_same hwork ?_ htarget⟩
  · rw [hwork]
    exact fun place hp => (hway place hp).mp
  · rw [hwork, hgrows.placeOf]
    exact fun hapart => (htarget hapart).symm
  · exact fun place hp => (hway place hp).mpr

/-- Whether the stub of a class can be written is the same after another one was written. -/
theorem writable_writeFile_iff (hplain : tree.Plain)
    (hhome : tree.entry? tree.workingDirectory = some .directory) (h : Names.IsDotted name)
    (hother : Names.IsDotted other) (hne : other ≠ name) (content : String) :
    (writeFile (m := StateM FileTree) (stubPath out other) content tree).2.Writable
        (stubPath out name) ↔ tree.Writable (stubPath out name) :=
  writable_iff_of_other h hother hne
    (FileTree.confined_writeFile_apart _ content tree hplain rfl hhome).2
    (FileTree.founds_writeFile _ content tree hplain rfl hhome)

end

/-- What becomes of a class, by the list of a report that it appears in. -/
inductive Fate where
  | written
  | deferred
  | skipped (reason : Omission)
  | failed
  deriving DecidableEq, Repr

/-- The fate of a class that came to that result. -/
def fateOf : GenerateResult → Fate
  | .ok (.written _) => .written
  | .ok (.skipped .unresolvedSuper) => .deferred
  | .ok (.skipped reason) => .skipped reason
  | .error _ => .failed

/-- Why a class is skipped, if so. -/
def Fate.reason? : Fate → Option Omission
  | .skipped reason => some reason
  | _ => none

@[simp] theorem Fate.reason?_written : Fate.written.reason? = none := rfl

@[simp] theorem Fate.reason?_deferred : Fate.deferred.reason? = none := rfl

@[simp] theorem Fate.reason?_failed : Fate.failed.reason? = none := rfl

@[simp] theorem Fate.reason?_skipped (reason : Omission) :
    (Fate.skipped reason).reason? = some reason := rfl

theorem Fate.reason?_eq_some {fate : Fate} {reason : Omission} :
    fate.reason? = some reason ↔ fate = .skipped reason := by
  cases fate <;> simp

/-- Different reasons are worded differently. -/
theorem Omission.message_injective : Function.Injective Omission.message := by
  intro a b h
  cases a <;> cases b <;> first | rfl | exact absurd h (by decide)

/-- An element with an image of its own is in the image of a part only if it is in the part. -/
theorem mem_map_filter_iff {α β : Type} {f : α → β} {p : α → Bool} {l : List α} {x : α}
    (hx : x ∈ l) (hf : ∀ y ∈ l, f y = f x → y = x) : f x ∈ (l.filter p).map f ↔ p x = true := by
  rw [List.mem_map]
  constructor
  · rintro ⟨y, hy, heq⟩
    obtain ⟨hy, hp⟩ := List.mem_filter.mp hy
    exact hf y hy heq ▸ hp
  · exact fun hp => ⟨x, List.mem_filter.mpr ⟨hx, hp⟩, rfl⟩

/-- A report lists classes by their fates, each list in the order of the classes. -/
structure Accounts (report : Report.Written) (placed : List (ImportSet × ClassDecl))
    (fate : ImportSet × ClassDecl → Fate) : Prop where
  written : report.written = (placed.filter (fate · = .written)).map (shownPath ·.2.name)
  deferred : report.deferred = (placed.filter (fate · = .deferred)).map (·.2.name)
  skipped : report.skipped = placed.filterMap fun x =>
    (fate x).reason?.map fun reason => ⟨x.2.name, reason.message⟩
  failures : report.failures.map (·.name) = (placed.filter (fate · = .failed)).map (·.2.name)

/-- Whether a report names a class in the list of that fate. -/
def Mentions (report : Report.Written) (name : String) : Fate → Prop
  | .written => shownPath name ∈ report.written
  | .deferred => name ∈ report.deferred
  | .skipped reason => ⟨name, reason.message⟩ ∈ report.skipped
  | .failed => name ∈ report.failures.map (·.name)

namespace Accounts

variable {report : Report.Written} {placed : List (ImportSet × ClassDecl)}
  {fate : ImportSet × ClassDecl → Fate}

theorem nil : Accounts {} [] fate := ⟨rfl, rfl, rfl, rfl⟩

/-- One more class comes first. -/
theorem cons {base : Path} {x : ImportSet × ClassDecl} {result : GenerateResult}
    (hfate : fateOf result = fate x)
    (hpath : ∀ path, result = .ok (.written path) → relativeText base path = shownPath x.2.name)
    (h : Accounts report placed fate) :
    Accounts ((recordResult base {} x.2.name result).followedBy report) (x :: placed) fate := by
  obtain ⟨hwritten, hdeferred, hskipped, hfailures⟩ := h
  cases result with
  | error error =>
    constructor <;>
      simp [Report.Written.followedBy, recordResult, ← hfate, fateOf, hwritten,
        hdeferred, hskipped, hfailures]
  | ok generated =>
    cases generated with
    | written path =>
      have hshown := hpath path rfl
      constructor <;>
        simp [Report.Written.followedBy, recordResult, ← hfate, fateOf, hwritten,
          hdeferred, hskipped, hfailures, hshown]
    | skipped reason =>
      cases reason
      all_goals
        constructor <;>
          simp [Report.Written.followedBy, recordResult, ← hfate, fateOf, hwritten,
            hdeferred, hskipped, hfailures]

/-- The four lists have one entry for every class. -/
theorem length (h : Accounts report placed fate) :
    report.written.length + report.deferred.length + report.skipped.length +
      report.failures.length = placed.length := by
  have hfailures : report.failures.length = (placed.filter (fate · = .failed)).length := by
    rw [← List.length_map (·.name), h.failures, List.length_map]
  rw [h.written, h.deferred, h.skipped, hfailures, List.length_map, List.length_map]
  clear h hfailures
  induction placed with
  | nil => rfl
  | cons x rest ih =>
    cases hx : fate x <;> simp [hx] <;> omega

/-- A class with a name of its own appears in the list of its fate only. -/
theorem mentions_iff (h : Accounts report placed fate)
    (hnames : ∀ x ∈ placed, Names.IsDotted x.2.name)
    (hdistinct : (placed.map (·.2.name)).Nodup) {x : ImportSet × ClassDecl} (hx : x ∈ placed)
    (other : Fate) : Mentions report x.2.name other ↔ fate x = other := by
  have hsame : ∀ y ∈ placed, y.2.name = x.2.name → y = x := fun y hy heq =>
    List.inj_on_of_nodup_map hdistinct hy hx heq
  cases other with
  | written =>
    rw [Mentions, h.written]
    refine (mem_map_filter_iff hx fun y hy heq => ?_).trans decide_eq_true_iff
    exact hsame y hy (shownPath_inj (hnames y hy) (hnames x hx) heq)
  | deferred =>
    rw [Mentions, h.deferred]
    exact (mem_map_filter_iff hx hsame).trans decide_eq_true_iff
  | failed =>
    rw [Mentions, h.failures]
    exact (mem_map_filter_iff hx hsame).trans decide_eq_true_iff
  | skipped reason =>
    rw [Mentions, h.skipped, List.mem_filterMap]
    constructor
    · rintro ⟨y, hy, hremark⟩
      obtain ⟨found, hfound, heq⟩ := Option.map_eq_some_iff.mp hremark
      obtain ⟨hname, hmessage⟩ := Report.Remark.mk.inj heq
      rw [← hsame y hy hname, Fate.reason?_eq_some.mp hfound, Omission.message_injective hmessage]
    · intro hfate
      exact ⟨x, hx, by rw [hfate, Fate.reason?_skipped, Option.map_some]⟩

end Accounts

namespace Generator

variable {g : Generator} {imports : ImportSet} {decl : ClassDecl} {tree current : FileTree}
  {placed : List (ImportSet × ClassDecl)}

/-- Generating a class is trying it. -/
theorem generate_apply (hc : Conservative g.printer.transform) (imports : ImportSet)
    (decl : ClassDecl) (tree : FileTree) :
    g.generate (m := StateM FileTree) imports decl tree =
      (((g.attempt (m := StateM FileTree) imports decl tree).1, decl,
          g.after decl (g.attempt (m := StateM FileTree) imports decl tree).1),
        (g.attempt (m := StateM FileTree) imports decl tree).2) :=
  congrFun (generate_eq (m := StateM FileTree) hc imports decl) tree

/-- Trying a class does not change whether the stub of another one can be written. -/
theorem writable_attempt_iff (hc : Conservative g.printer.transform) (hplain : tree.Plain)
    (hhome : tree.entry? tree.workingDirectory = some .directory) (imports : ImportSet)
    (hdecl : Names.IsDotted decl.name) {name : String} (hname : Names.IsDotted name)
    (hne : decl.name ≠ name) :
    (g.attempt (m := StateM FileTree) imports decl tree).2.Writable
        (stubPath g.settings.outputDirectory name) ↔
      tree.Writable (stubPath g.settings.outputDirectory name) := by
  cases hd : g.decision decl with
  | skip reason => rw [attempt_of_skip hd]
  | render =>
    rw [attempt_of_render hc hd hdecl]
    exact writable_writeFile_iff hplain hhome hname hdecl hne _

/-- A class without a file is deferred or skipped, whatever the tree. -/
theorem fate_of_skip {reason : Omission} (imports : ImportSet) (tree : FileTree)
    (h : g.decision decl = .skip reason) :
    fateOf (g.attempt (m := StateM FileTree) imports decl tree).1 =
      fateOf (.ok (.skipped reason)) := by
  rw [attempt_of_skip h]

/-- A class that gets a file is written if its stub can be written, and fails otherwise. -/
theorem fate_of_render (hc : Conservative g.printer.transform) (h : g.decision decl = .render)
    (hdecl : Names.IsDotted decl.name) (hplain : tree.Plain)
    (hhome : tree.entry? tree.workingDirectory = some .directory) (imports : ImportSet) :
    tree.Writable (stubPath g.settings.outputDirectory decl.name) ∧
        fateOf (g.attempt (m := StateM FileTree) imports decl tree).1 = .written ∨
      ¬ tree.Writable (stubPath g.settings.outputDirectory decl.name) ∧
        fateOf (g.attempt (m := StateM FileTree) imports decl tree).1 = .failed := by
  have hpath : (stubPath g.settings.outputDirectory decl.name).pieces = _ := pieces_stubPath hdecl
  have hwritten := FileTree.writeFile_iff hplain hhome (isName_stubFileName decl.name) hpath
    (text_stubFile_ne_empty hc imports h)
  rw [attempt_of_render hc h hdecl, ← hwritten]
  simp only
  generalize writeFile (m := StateM FileTree) (stubPath g.settings.outputDirectory decl.name)
    (g.stubFile imports decl).1.text tree = run
  obtain ⟨result, after⟩ := run
  cases result with
  | ok _ => exact Or.inl ⟨rfl, rfl⟩
  | error cause => exact Or.inr ⟨by simp, rfl⟩

/-- A class whose stub can be written in two trees or in neither comes to the same in both. -/
theorem fate_attempt_eq (hc : Conservative g.printer.transform) (hplain : tree.Plain)
    (hhome : tree.entry? tree.workingDirectory = some .directory) (hplain' : current.Plain)
    (hhome' : current.entry? current.workingDirectory = some .directory) (imports : ImportSet)
    (hdecl : Names.IsDotted decl.name)
    (hsame : current.Writable (stubPath g.settings.outputDirectory decl.name) ↔
      tree.Writable (stubPath g.settings.outputDirectory decl.name)) :
    fateOf (g.attempt (m := StateM FileTree) imports decl current).1 =
      fateOf (g.attempt (m := StateM FileTree) imports decl tree).1 := by
  cases hd : g.decision decl with
  | skip reason => rw [fate_of_skip _ _ hd, fate_of_skip _ _ hd]
  | render =>
    rcases fate_of_render hc hd hdecl hplain hhome imports with ⟨hw, hfate⟩ | ⟨hw, hfate⟩
    · rcases fate_of_render hc hd hdecl hplain' hhome' imports with ⟨-, hfate'⟩ | ⟨hw', -⟩
      · rw [hfate, hfate']
      · exact absurd (hsame.mpr hw) hw'
    · rcases fate_of_render hc hd hdecl hplain' hhome' imports with ⟨hw', -⟩ | ⟨-, hfate'⟩
      · exact absurd (hsame.mp hw') hw
      · rw [hfate, hfate']

/-- A class is reported under the path of its stub. -/
theorem path_of_attempt (hc : Conservative g.printer.transform) (hdecl : Names.IsDotted decl.name)
    {path : Path}
    (h : (g.attempt (m := StateM FileTree) imports decl tree).1 = .ok (.written path)) :
    relativeText g.settings.outputDirectory path = shownPath decl.name := by
  cases hd : g.decision decl with
  | skip reason =>
    rw [attempt_of_skip hd] at h
    cases h
  | render =>
    rw [attempt_of_render hc hd hdecl] at h
    simp only at h
    split at h
    · obtain rfl := Generated.written.inj (Except.ok.inj h)
      exact relativeText_join _ hdecl
    · cases h

/-- A class that was written left its stub. -/
theorem find_of_fate (hc : Conservative g.printer.transform) (hplain : tree.Plain)
    (hhome : tree.entry? tree.workingDirectory = some .directory)
    (hdecl : Names.IsDotted decl.name)
    (h : fateOf (g.attempt (m := StateM FileTree) imports decl tree).1 = .written) :
    (g.attempt (m := StateM FileTree) imports decl tree).2.find
        (stubPath g.settings.outputDirectory decl.name) =
      .ok (tree.placeOf (stubPath g.settings.outputDirectory decl.name),
        .file (g.stubFile imports decl).1.text.toUTF8) := by
  cases hd : g.decision decl with
  | skip reason =>
    rw [fate_of_skip _ _ hd] at h
    cases reason <;> cases h
  | render =>
    rw [attempt_of_render hc hd hdecl] at h ⊢
    refine FileTree.find_of_writeFile hplain hhome (isName_stubFileName decl.name)
      (pieces_stubPath hdecl) (text_stubFile_ne_empty hc imports hd) ?_
    simp only at h
    split at h
    · assumption
    · cases h

/-- A dry run shows nothing for a name that no class has. -/
theorem lastContent?_of_not_mem (hc : Conservative g.printer.transform)
    (hnames : ∀ x ∈ placed, Names.IsDotted x.2.name) {name : String} (hname : Names.IsDotted name)
    (h : name ∉ placed.map (·.2.name)) : g.lastContent? placed (shownPath name) = none := by
  induction placed with
  | nil => rfl
  | cons first rest ih =>
    obtain ⟨imports, decl⟩ := first
    rw [List.forall_mem_cons] at hnames
    rw [List.map_cons, List.mem_cons, not_or] at h
    rw [lastContent?_cons, ih hnames.2 h.2, Option.none_or]
    cases hd : g.decision decl with
    | skip reason => exact lastContent?_singleton_of_skip hd _
    | render =>
      rw [lastContent?_singleton_of_render hc hd hnames.1, if_neg]
      exact fun heq => h.1 (shownPath_inj hname hnames.1 heq)

/-- Where the same stubs can be written as in a first tree, a run reports each class as it comes out
alone in the first tree, and leaves the same text for it: induction over the classes, since trying
one of them keeps what can be written of the others. -/
theorem attemptAll_alone (hc : Conservative g.printer.transform) (hplain : tree.Plain)
    (hhome : tree.entry? tree.workingDirectory = some .directory) (hplain' : current.Plain)
    (hhome' : current.entry? current.workingDirectory = some .directory)
    (hnames : ∀ x ∈ placed, Names.IsDotted x.2.name)
    (hdistinct : (placed.map (·.2.name)).Nodup)
    (hsame : ∀ x ∈ placed, current.Writable (stubPath g.settings.outputDirectory x.2.name) ↔
      tree.Writable (stubPath g.settings.outputDirectory x.2.name)) :
    let fate := fun x : ImportSet × ClassDecl =>
      fateOf (g.attempt (m := StateM FileTree) x.1 x.2 tree).1
    let run := g.attemptAll (m := StateM FileTree) placed current
    Accounts (reportOn g.settings.outputDirectory (named run.1)) placed fate ∧
      ∀ x ∈ placed, fate x = .written →
        run.2.readText (stubPath g.settings.outputDirectory x.2.name) =
          .ok (g.stubFile x.1 x.2).1.text := by
  intro fate run
  induction placed generalizing current with
  | nil => exact ⟨Accounts.nil, by simp⟩
  | cons first rest ih =>
    obtain ⟨imports, decl⟩ := first
    rw [List.forall_mem_cons] at hnames hsame
    rw [List.map_cons, List.nodup_cons] at hdistinct
    have hfirst : fateOf (g.attempt (m := StateM FileTree) imports decl current).1 =
        fate (imports, decl) :=
      fate_attempt_eq hc hplain hhome hplain' hhome' imports hnames.1 hsame.1
    obtain ⟨hafter, hgrows⟩ := confined_attempt hc _ imports hnames.1 current hplain' rfl hhome'
    have hhome'' := hgrows.home_directory hhome'
    -- The first class changes the tree, but not where the stubs of the others can be written.
    have hothers : ∀ x ∈ rest, _ := fun x hx =>
      (writable_attempt_iff hc hplain' hhome' imports hnames.1 (hnames.2 x hx)
        (fun heq => hdistinct.1 (heq ▸ List.mem_map_of_mem hx))).trans (hsame.2 x hx)
    obtain ⟨hreport, hfound⟩ := ih hafter hhome'' hnames.2 hdistinct.2 hothers
    refine ⟨?_, ?_⟩
    · exact (reportOn_cons _ _ _ _).symm ▸
        hreport.cons hfirst fun path hpath => path_of_attempt hc hnames.1 hpath
    · rw [List.forall_mem_cons]
      refine ⟨fun hwritten => ?_, hfound⟩
      have hstub := find_of_fate hc hplain' hhome' hnames.1 (hfirst.trans hwritten)
      -- No later class has the name, so the text that is found at the end is the one written here.
      have hkept := find_attemptAll hc hafter hhome'' hnames.2 hnames.1 hstub
      rw [lastContent?_of_not_mem hc hnames.2 hnames.1 hdistinct.1] at hkept
      exact FileTree.readText_of_find hkept

end Generator

/-- In one generation every class comes to what it comes to alone, in the tree that the generation
starts with: it appears in exactly one list of the report, that of its fate, where the lists follow
the model and count all of its classes; and the file of a class that is written holds in the end
what it holds when that class alone is generated. -/
theorem generateModel_alone (model : DeclarationModel) (settings : StubSettings)
    (hnames : ∀ decl ∈ model.topLevel, Names.IsDotted decl.name)
    (hdistinct : (model.topLevel.map (·.name)).Nodup) (tree : FileTree) (hplain : tree.Plain)
    (hhome : tree.entry? tree.workingDirectory = some .directory) :
    let alone := fun x : ImportSet × ClassDecl =>
      (modelGenerator model settings).generate (m := StateM FileTree) x.1 x.2 tree
    let fate := fun x => fateOf (alone x).1.1
    let whole := generateModel (m := StateM FileTree) model settings tree
    ∃ report : Report.Written, whole.1.1.result = .written report ∧
      Accounts report model.placed fate ∧
      report.written.length + report.deferred.length + report.skipped.length +
        report.failures.length = whole.1.1.classes ∧
      (∀ x ∈ model.placed, ∀ other, Mentions report x.2.name other ↔ fate x = other) ∧
      ∀ x ∈ model.placed, fate x = .written → ∃ content,
        whole.2.readText (stubPath settings.outputDirectory x.2.name) = .ok content ∧
        (alone x).2.readText (stubPath settings.outputDirectory x.2.name) = .ok content := by
  intro alone fate whole
  have hplaced : ∀ x ∈ model.placed, Names.IsDotted x.2.name := fun x hx =>
    hnames x.2 (DeclarationModel.mem_topLevel_of_mem_placed hx)
  have hdistinct : (model.placed.map (·.2.name)).Nodup := by
    rw [← model.map_snd_placed, List.map_map] at hdistinct
    exact hdistinct
  have hc : Conservative (modelGenerator model settings).printer.transform :=
    conservative_standard []
  have halone : ∀ x, alone x = _ := fun x => Generator.generate_apply hc x.1 x.2 tree
  have hfate : ∀ x, fate x = fateOf
      ((modelGenerator model settings).attempt (m := StateM FileTree) x.1 x.2 tree).1 :=
    fun x => congrArg (fun run => fateOf run.1.1) (halone x)
  have hwhole : whole = _ := generateModel_apply model settings tree
  obtain ⟨hreport, hfound⟩ := Generator.attemptAll_alone hc hplain hhome hplain hhome hplaced
    hdistinct fun _ _ => Iff.rfl
  simp only [← hfate] at hreport hfound
  have hclasses : model.placed.length = model.topLevelCount := by
    rw [DeclarationModel.topLevelCount, ← model.map_snd_placed, List.length_map]
  refine ⟨_, congrArg (·.1.1.result) hwhole, hreport, ?_, ?_, ?_⟩
  · rw [hwhole]
    exact hreport.length.trans hclasses
  · exact fun x hx other => hreport.mentions_iff hplaced hdistinct hx other
  · intro x hx hwritten
    have hstub := Generator.find_of_fate hc hplain hhome (hplaced x hx)
      ((hfate x).symm.trans hwritten)
    rw [hwhole, halone]
    exact ⟨_, hfound x hx hwritten, FileTree.readText_of_find hstub⟩

/-- One class of each fate, where a file stands in place of the package `geo` and classes wait for
their super class. -/
def quartet : DeclarationModel :=
  { units :=
      [{ classes := [{ name := "geo.Pen" }, { name := "Ink" }] },
       { classes :=
          [{ name := "Nib", superClass := some { name := "geo.Tip", resolved := false } },
           { name := "geo.Ink$1", nesting := .anonymous }] }] }

/-- The settings of that generation. -/
def patient : StubSettings := { outputDirectory := ofString "out", requireSuperResolved := true }

theorem quartet_alone : ∃ report : Report.Written,
    (generateModel (m := StateM FileTree) quartet patient blocked).1.1.result = .written report ∧
      report.written = ["Ink.java"] ∧ report.deferred = ["Nib"] ∧
      report.skipped = [⟨"geo.Ink$1", "anonymous class"⟩] ∧
      report.failures.map (·.name) = ["geo.Pen"] := by
  obtain ⟨report, hresult, hreport, -⟩ := generateModel_alone quartet patient (by decide +kernel)
    (by decide +kernel) blocked plain_blocked rfl
  have hc : Conservative (modelGenerator quartet patient).printer.transform :=
    conservative_standard []
  have hpen : ¬ blocked.Writable (stubPath patient.outputDirectory "geo.Pen") := by
    intro h
    rcases h.clear.vacant ["out", "geo"] (by decide +kernel) with hnone | hdirectory
    · cases hnone
    · cases hdirectory
  have hink : blocked.Writable (stubPath patient.outputDirectory "Ink") := by
    have hcomponents : (stubPath patient.outputDirectory "Ink").components =
        [.name "out", .name "Ink.java"] := by decide +kernel
    refine ⟨⟨by decide +kernel, by decide +kernel, by decide +kernel⟩, ?_, ?_, ?_, .inl rfl⟩
    · rw [hcomponents]
      exact FileTree.clear_cons_name.mpr ⟨by decide, .inr rfl, ⟨by simp [visited], by simp⟩⟩
    · rw [hcomponents]
      simp only [List.mem_cons, Component.name.injEq, List.not_mem_nil, or_false]
      rintro name (rfl | rfl) <;> decide
    · decide +kernel
  have hplaced : quartet.placed =
      [({}, { name := "geo.Pen" }), ({}, { name := "Ink" }),
        ({}, { name := "Nib", superClass := some { name := "geo.Tip", resolved := false } }),
        ({}, { name := "geo.Ink$1", nesting := .anonymous })] := rfl
  obtain ⟨-, hwritten⟩ := (Generator.fate_of_render hc
    (rfl : Generator.decision _ { name := "Ink" } = .render) (by decide +kernel) plain_blocked rfl
    {}).resolve_right fun h => h.1 hink
  obtain ⟨-, hfailed⟩ := (Generator.fate_of_render hc
    (rfl : Generator.decision _ { name := "geo.Pen" } = .render) (by decide +kernel) plain_blocked
    rfl {}).resolve_left fun h => hpen h.1
  obtain ⟨hreport, hdeferred, hskipped, hfailures⟩ := hreport
  have hwaits : _ = Fate.deferred := Generator.fate_of_skip {} blocked
    (rfl : Generator.decision (modelGenerator quartet patient)
      { name := "Nib", superClass := some { name := "geo.Tip", resolved := false } } =
        .skip .unresolvedSuper)
  have hnameless : _ = Fate.skipped .anonymous := Generator.fate_of_skip {} blocked
    (rfl : Generator.decision (modelGenerator quartet patient)
      { name := "geo.Ink$1", nesting := .anonymous } = .skip .anonymous)
  have hshown : shownPath "Ink" = "Ink.java" := by decide +kernel
  refine ⟨report, hresult, hreport.trans ?_, hdeferred.trans ?_, hskipped.trans ?_,
    hfailures.trans ?_⟩
  all_goals
    simp [hplaced, Generator.generate_apply hc, hwritten, hfailed, hwaits, hnameless, hshown,
      Omission.message]

end JavaStubs.Stubs
