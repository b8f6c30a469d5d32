import JavaStubs.Proofs.CleanedFiles
import JavaStubs.Proofs.RepeatedWrites
import JavaStubs.Proofs.RewrittenText

/-!
# Classes that are put off

A generator that waits for super classes passes over the units of a model again and again, while the
front end gets to know one super class after the other. A pass writes some of the stubs that are
due, and the last one writes all of them, with the same texts: no text says which super classes are
known. So the files and the registered stubs are in the end those of a single pass that waits for
nothing.
-/
namespace JavaStubs

open Source (Dialect)

/-! ### Super classes that become known -/

/-- Whether a super class stays as it is or becomes known. -/
inductive SuperResolves : Option ClassType → Option ClassType → Prop where
  | same (superClass : Option ClassType) : SuperResolves superClass superClass
  | known (type : ClassType) : SuperResolves (some type) (some { type with resolved := true })

mutual

/-- Whether a tree becomes another one when super classes in it, at any depth, become known. -/
inductive ClassDecl.Resolves : ClassDecl → ClassDecl → Prop where
  | mk {decl : ClassDecl} {superClass : Option ClassType} {inner : List ClassDecl}
      (hsuper : SuperResolves decl.superClass superClass)
      (hinner : ClassDecl.ListResolves decl.inner inner) :
      ClassDecl.Resolves decl { decl with superClass, inner }

/-- The same for trees one by one. -/
inductive ClassDecl.ListResolves : List ClassDecl → List ClassDecl → Prop where
  | nil : ClassDecl.ListResolves [] []
  | cons {decl after : ClassDecl} {rest others : List ClassDecl}
      (h : ClassDecl.Resolves decl after) (hrest : ClassDecl.ListResolves rest others) :
      ClassDecl.ListResolves (decl :: rest) (after :: others)

end

/-- Whether a unit becomes another one when super classes in it become known. -/
structure SourceUnit.Resolves (before after : SourceUnit) : Prop where
  imports : after.imports = before.imports
  classes : ClassDecl.ListResolves before.classes after.classes

/-- The classes of a unit, each with the imports of the unit. -/
def SourceUnit.placed (unit : SourceUnit) : List (ImportSet × ClassDecl) :=
  unit.classes.map fun decl => (unit.imports, decl)

namespace Rewriting

/-- The rewriting that makes every class type a known one. -/
def settling : Rewriting where
  classType type := { type with resolved := true }
  typeVariable name _ := name
  generics := id
  name_classType _ := rfl
  classType_ofName _ := rfl
  generics_nil := rfl

theorem settling_spells (dialect : Dialect) : settling.Spells dialect dialect where
  classText type := by
    obtain ⟨⟩ := type
    rw [settling, Dialect.classText, Dialect.classText]
  genericsText _ := rfl
  placeholder name erasure := by
    obtain ⟨⟩ := erasure
    simp only [settling, Dialect.typeText, Dialect.classText]

theorem settling_superClass {before after : Option ClassType} (h : SuperResolves before after) :
    after.map settling.classType = before.map settling.classType := by
  cases h <;> rfl

mutual

/-- A tree in which super classes became known is settled to the same tree: induction over the tree
that it was before. -/
theorem settling_classDecl : (decl : ClassDecl) → {after : ClassDecl} → decl.Resolves after →
    settling.classDecl after = settling.classDecl decl
  | { inner, .. }, _, .mk hsuper hinner => by
    rw [classDecl_eq, classDecl_eq, settling_classDecls inner hinner]
    simp only [own, settling_superClass hsuper]

theorem settling_classDecls : (decls : List ClassDecl) → {after : List ClassDecl} →
    ClassDecl.ListResolves decls after → settling.classDecls after = settling.classDecls decls
  | [], _, .nil => rfl
  | decl :: rest, _, .cons h hrest => by
    rw [classDecls, classDecls, settling_classDecl decl h, settling_classDecls rest hrest]

end

theorem classDecls_eq_map (r : Rewriting) (decls : List ClassDecl) :
    r.classDecls decls = decls.map r.classDecl := by
  induction decls with
  | nil => rw [classDecls, List.map_nil]
  | cons decl rest ih => rw [classDecls, ih, List.map_cons]

/-- The settled class, with the imports that it had. -/
def settle (x : ImportSet × ClassDecl) : ImportSet × ClassDecl := (x.1, settling.classDecl x.2)

theorem settle_placed {before after : SourceUnit} (h : before.Resolves after) :
    after.placed.map settle = before.placed.map settle := by
  have hclasses := settling_classDecls before.classes h.classes
  rw [classDecls_eq_map, classDecls_eq_map] at hclasses
  have hplaced : ∀ unit : SourceUnit, unit.placed.map settle =
      (unit.classes.map settling.classDecl).map fun decl => (unit.imports, decl) := by
    intro unit
    rw [SourceUnit.placed, List.map_map, List.map_map]
    rfl
  rw [hplaced, hplaced, hclasses, h.imports]

theorem settle_units {before after : List SourceUnit}
    (h : List.Forall₂ SourceUnit.Resolves before after) :
    (after.flatMap SourceUnit.placed).map settle =
      (before.flatMap SourceUnit.placed).map settle := by
  induction h with
  | nil => rfl
  | cons hunit _ ih =>
    rw [List.flatMap_cons, List.flatMap_cons, List.map_append, List.map_append, ih,
      settle_placed hunit]

/-- Names stay as they are when super classes become known. -/
theorem isDotted_resolved {before after : List SourceUnit}
    (h : List.Forall₂ SourceUnit.Resolves before after)
    (hnames : ∀ x ∈ before.flatMap SourceUnit.placed, Names.IsDotted x.2.name) :
    ∀ x ∈ after.flatMap SourceUnit.placed, Names.IsDotted x.2.name := by
  intro x hx
  obtain ⟨y, hy, hsettled⟩ :=
    List.mem_map.mp (settle_units h ▸ List.mem_map_of_mem (f := settle) hx)
  have hname : ∀ x : ImportSet × ClassDecl, (settle x).2.name = x.2.name := fun x =>
    settling.name_classDecl x.2
  rw [← hname x, ← hsettled, hname y]
  exact hnames y hy

end Rewriting

namespace Stubs

open Files JavaStubs.Path Rewriting
open Files.FileTree (SameFiles Writes)

namespace Generator

variable {g : Generator} {protocol : List MethodDecl} {rules : List CallRule}

/-! ### What is due -/

/-- The names and texts of the stubs that are due, those of the classes that get a file. -/
def due (g : Generator) (placed : List (ImportSet × ClassDecl)) : List (String × String) :=
  (placed.filter fun x => g.decision x.2 = .render).map fun x =>
    (x.2.name, (g.stubFile x.1 x.2).1.text)

/-- The generator that waits for no super class. -/
def impatient (g : Generator) : Generator :=
  { g with settings := { g.settings with requireSuperResolved := false } }

/-- The generator that knows settled classes. -/
def settled (g : Generator) (protocol : List MethodDecl) : Generator :=
  { g with
    printer :=
      { g.printer with
        index := settling.index g.printer.index
        transform := .standard (protocol.map settling.method) } }

/-- A settled class has the stub of the class. -/
theorem text_settled (h : g.printer.transform = .standard protocol)
    (hrules : g.printer.Follows rules) (imports : ImportSet) (decl : ClassDecl) :
    ((g.settled protocol).stubFile imports (settling.classDecl decl)).1.text =
      (g.stubFile imports decl).1.text := by
  have hrewritten : g.printer.Rewritten settling protocol rules (g.settled protocol).printer :=
    ⟨settling_spells g.printer.dialect, settling.get?_index g.printer.index, h, rfl, hrules,
      hrules⟩
  have hc : Conservative g.printer.transform := h ▸ conservative_standard protocol
  have hsettled : Conservative (g.settled protocol).printer.transform :=
    conservative_standard (protocol.map settling.method)
  have hpackage : (settling.classDecl decl).packageName? = decl.packageName? := by
    rw [classDecl_eq]
    rfl
  simp only [stubFile, StubFile.text, Printer.printInto_snd hc, Printer.printInto_snd hsettled,
    Printer.printInto_classDecl hrewritten, hpackage]

theorem impatient_decision (decl : ClassDecl) :
    g.impatient.decision (settling.classDecl decl) = g.impatient.decision decl := by
  rw [classDecl_eq]
  rfl

/-- What is due to a generator that waits for nothing depends on the settled classes only. -/
theorem due_settled (h : g.printer.transform = .standard protocol)
    (hrules : g.printer.Follows rules) (placed : List (ImportSet × ClassDecl)) :
    (g.impatient.settled protocol).due (placed.map settle) = g.impatient.due placed := by
  have hdecision : ∀ decl, (g.impatient.settled protocol).decision (settling.classDecl decl) =
      g.impatient.decision decl := fun decl => impatient_decision decl
  have htext := text_settled (g := g.impatient) h hrules
  simp only [due, List.filter_map, List.map_map, Function.comp_def, settle, hdecision, htext,
    name_classDecl]

theorem due_resolved (h : g.printer.transform = .standard protocol)
    (hrules : g.printer.Follows rules) {before after : List SourceUnit}
    (hunits : List.Forall₂ SourceUnit.Resolves before after) :
    g.impatient.due (after.flatMap SourceUnit.placed) =
      g.impatient.due (before.flatMap SourceUnit.placed) := by
  rw [← due_settled h hrules, ← due_settled h hrules, settle_units hunits]

/-- A class that gets a file from a generator gets one from the generator that waits for nothing. -/
theorem impatient_of_render {decl : ClassDecl} (h : g.decision decl = .render) :
    g.impatient.decision decl = .render := by
  unfold decision StubSettings.decision at h ⊢
  split at h
  · cases h
  · exact h

/-- Where the super class is known, there is nothing to wait for. -/
theorem impatient_of_isSuperResolved {decl : ClassDecl} (h : decl.isSuperResolved = true) :
    g.impatient.decision decl = g.decision decl := by
  simp only [decision, StubSettings.decision, impatient, h, Bool.not_true, Bool.and_false]

theorem due_subset_impatient (placed : List (ImportSet × ClassDecl)) :
    g.due placed ⊆ g.impatient.due placed := by
  refine List.map_subset _ (List.monotone_filter_right placed fun x hx => ?_).subset
  exact decide_eq_true (impatient_of_render (of_decide_eq_true hx))

theorem due_eq_impatient {placed : List (ImportSet × ClassDecl)}
    (h : ∀ x ∈ placed, x.2.isSuperResolved = true) : g.due placed = g.impatient.due placed := by
  refine congrArg (List.map _) (List.filter_congr fun x hx => ?_)
  rw [impatient_of_isSuperResolved (h x hx)]

/-! ### What a pass does -/

/-- The file of a stub that is due. -/
def fileOf (g : Generator) (stub : String × String) : Path × String :=
  (stubPath g.settings.outputDirectory stub.1, stub.2)

/-- The generator with the stubs of some classes registered. -/
def registerAll (g : Generator) (names : List String) : Generator :=
  { g with
    registry := names.foldl (fun registry name => registry.register (ofDotted name)) g.registry }

theorem registerAll_append (g : Generator) (front back : List String) :
    g.registerAll (front ++ back) = (g.registerAll front).registerAll back := by
  rw [registerAll, List.foldl_append]
  rfl

theorem mem_due {placed : List (ImportSet × ClassDecl)} {stub : String × String} :
    stub ∈ g.due placed ↔ ∃ x ∈ placed, g.decision x.2 = .render ∧
      (x.2.name, (g.stubFile x.1 x.2).1.text) = stub := by
  simp only [due, List.mem_map, List.mem_filter, decide_eq_true_eq, and_assoc]

theorem map_fst_due (model : DeclarationModel) :
    (g.due (model.units.flatMap SourceUnit.placed)).map Prod.fst =
      renderedNames model g.settings := by
  rw [due, renderedNames, ← model.map_snd_placed, List.filter_map, List.map_map, List.map_map]
  rfl

/-- Where no class fails, trying classes is writing the stubs that are due and registering them:
induction over the classes. -/
theorem attemptAll_due (hc : Conservative g.printer.transform)
    {placed : List (ImportSet × ClassDecl)} (hnames : ∀ x ∈ placed, Names.IsDotted x.2.name)
    {tree : FileTree}
    (hok : ∀ x ∈ (g.attemptAll (m := StateM FileTree) placed tree).1, writeError? x.2 = none)
    (other : Generator) :
    let run := g.attemptAll (m := StateM FileTree) placed tree
    Writes ((g.due placed).map g.fileOf) tree run.2 ∧
      other.afterAll run.1 = other.registerAll ((g.due placed).map Prod.fst) := by
  induction placed generalizing tree other with
  | nil => exact ⟨.nil tree, rfl⟩
  | cons first rest ih =>
    obtain ⟨imports, decl⟩ := first
    rw [List.forall_mem_cons] at hnames
    rw [attemptAll_cons] at hok ⊢
    cases hd : g.decision decl with
    | skip reason =>
      have hdue : g.due ((imports, decl) :: rest) = g.due rest := by simp [due, hd]
      rw [attempt_of_skip hd] at hok ⊢
      rw [hdue]
      exact ih hnames.2 (List.forall_mem_cons.mp hok).2 other
    | render =>
      have hdue : g.due ((imports, decl) :: rest) =
          (decl.name, (g.stubFile imports decl).1.text) :: g.due rest := by simp [due, hd]
      have hattempt : g.attempt (m := StateM FileTree) imports decl tree = _ :=
        attempt_of_render hc hd hnames.1
      rcases hwritten : writeFile (m := StateM FileTree)
        (stubPath g.settings.outputDirectory decl.name) (g.stubFile imports decl).1.text tree
        with ⟨result, after⟩
      simp only [hwritten] at hattempt
      simp only [hattempt] at hok ⊢
      obtain ⟨hfirst, hothers⟩ := List.forall_mem_cons.mp hok
      cases result with
      | error cause => exact absurd hfirst (Option.some_ne_none _)
      | ok _ =>
        obtain ⟨hwrites, hafter⟩ := ih hnames.2 hothers (other.register (ofDotted decl.name))
        rw [hdue, List.map_cons, List.map_cons]
        refine ⟨.cons (congrArg Prod.fst hwritten) ?_, hafter⟩
        rw [hwritten]
        exact hwrites

theorem generateUnits_apply (hc : Conservative g.printer.transform) (units : List SourceUnit)
    (tree : FileTree) :
    let run := g.attemptAll (m := StateM FileTree) (units.flatMap SourceUnit.placed) tree
    generateUnits (m := StateM FileTree) g units tree =
      ((named run.1, units, g.afterAll run.1), run.2) :=
  congrFun (generateUnits_eq (m := StateM FileTree) hc units) tree

/-- A pass in which nothing fails leaves the units as they are, writes the stubs that are due and
registers them. -/
theorem pass_due (hc : Conservative g.printer.transform) {units returned : List SourceUnit}
    (hnames : ∀ x ∈ units.flatMap SourceUnit.placed, Names.IsDotted x.2.name)
    {tree after : FileTree} {results : List (String × GenerateResult)} {next : Generator}
    (hrun : generateUnits (m := StateM FileTree) g units tree = ((results, returned, next), after))
    (hok : ∀ result ∈ results, writeError? result.2 = none) :
    let stubs := g.due (units.flatMap SourceUnit.placed)
    returned = units ∧ next = g.registerAll (stubs.map Prod.fst) ∧
      Writes (stubs.map g.fileOf) tree after := by
  have htried := (generateUnits_apply hc units tree).symm.trans hrun
  obtain ⟨⟨rfl, rfl, rfl⟩, rfl⟩ := (by simpa only [Prod.mk.injEq] using htried)
  rw [named, List.forall_mem_map] at hok
  obtain ⟨hwrites, hafter⟩ := attemptAll_due hc hnames hok g
  exact ⟨rfl, hafter, hwrites⟩

end Generator

open Generator (generateUnits_apply pass_due)

/-- Passes of a generator over units, one after the other up to the last one; nothing fails in them.
Between them super classes become known; when the last one starts all of them are. -/
inductive Passes : Generator → List SourceUnit → FileTree → Generator → FileTree → Prop where
  | last {g next : Generator} {units returned : List SourceUnit}
      {results : List (String × GenerateResult)} {tree after : FileTree}
      (hrun : generateUnits (m := StateM FileTree) g units tree =
        ((results, returned, next), after))
      (hok : ∀ result ∈ results, writeError? result.2 = none)
      (hknown : ∀ unit ∈ units, ∀ decl ∈ unit.classes, decl.isSuperResolved = true) :
      Passes g units tree next after
  | again {g next final : Generator} {units returned others : List SourceUnit}
      {results : List (String × GenerateResult)} {tree between after : FileTree}
      (hrun : generateUnits (m := StateM FileTree) g units tree =
        ((results, returned, next), between))
      (hok : ∀ result ∈ results, writeError? result.2 = none)
      (hunits : List.Forall₂ SourceUnit.Resolves returned others)
      (hrest : Passes next others between final after) :
      Passes g units tree final after

/-- Passes write some of the stubs that are due to the generator that waits for nothing, and then
all of them; what is written is registered. Induction over the passes. -/
theorem Passes.writes {g next : Generator} {units : List SourceUnit} {tree after : FileTree}
    (h : Passes g units tree next after) {protocol : List MethodDecl} {rules : List CallRule}
    (hstandard : g.printer.transform = .standard protocol) (hrules : g.printer.Follows rules)
    (hnames : ∀ x ∈ units.flatMap SourceUnit.placed, Names.IsDotted x.2.name) :
    let all := g.impatient.due (units.flatMap SourceUnit.placed)
    ∃ earlier ⊆ all, next = g.registerAll ((earlier ++ all).map Prod.fst) ∧
      Writes ((earlier ++ all).map g.fileOf) tree after := by
  intro all
  induction h with
  | last hrun hok hknown =>
    obtain ⟨-, hnext, hwrites⟩ :=
      pass_due (hstandard ▸ conservative_standard protocol) hnames hrun hok
    have hall : _ = all := Generator.due_eq_impatient fun x hx => by
      obtain ⟨unit, hunit, hx⟩ := List.mem_flatMap.mp hx
      obtain ⟨decl, hdecl, rfl⟩ := List.mem_map.mp hx
      exact hknown unit hunit decl hdecl
    rw [hall] at hnext hwrites
    exact ⟨[], List.nil_subset _, hnext, hwrites⟩
  | again hrun hok hunits _ ih =>
    obtain ⟨rfl, rfl, hwrites⟩ :=
      pass_due (hstandard ▸ conservative_standard protocol) hnames hrun hok
    obtain ⟨earlier, hearlier, hnext, hrest⟩ :=
      ih hstandard hrules (isDotted_resolved hunits hnames)
    -- The later passes start from other units, of which the same is due.
    rw [show (Generator.registerAll _ _).impatient.due (List.flatMap _ _) = all from
      Generator.due_resolved hstandard hrules hunits] at hearlier hnext hrest
    refine ⟨_, List.append_subset.mpr ⟨Generator.due_subset_impatient _, hearlier⟩, ?_, ?_⟩
    · rw [List.append_assoc, List.map_append, Generator.registerAll_append]
      exact hnext
    · rw [List.append_assoc, List.map_append]
      exact hwrites.append hrest

/-- Registering some of the names before all of them changes the order at most. -/
theorem stubs_registerAll_perm {g : Generator} {base : Path}
    (hg : g.registry = Registry.empty base stubExtension) {names earlier : List String}
    (hnames : ∀ n ∈ names, Names.IsDotted n) (hearlier : earlier ⊆ names) :
    (g.registerAll (earlier ++ names)).registry.stubs.Perm
      (g.registerAll names).registry.stubs := by
  have hall : ∀ n ∈ earlier ++ names, Names.IsDotted n := fun n hn =>
    hnames n ((List.mem_append.mp hn).elim (@hearlier n) id)
  refine (List.perm_ext_iff_of_nodup (.of_map _ (Registry.distinct _))
    (.of_map _ (Registry.distinct _))).mpr fun stub => ?_
  simp only [Generator.registerAll, hg, (foldl_register hall base).2.2,
    (foldl_register hnames base).2.2, List.mem_map, List.mem_eraseDups, List.mem_append]
  refine exists_congr fun n => and_congr_left fun _ => ?_
  exact ⟨fun h => h.elim (@hearlier n) id, Or.inr⟩

/-- Passes of a generator that registered nothing come to the same as one pass of the generator that
waits for nothing. -/
theorem Passes.as_once {g final next : Generator} {units returned : List SourceUnit}
    {tree after once : FileTree} {results : List (String × GenerateResult)}
    (h : Passes g units tree final after) {protocol : List MethodDecl} {rules : List CallRule}
    (hstandard : g.printer.transform = .standard protocol) (hrules : g.printer.Follows rules)
    (hregistry : g.registry = Registry.empty g.settings.outputDirectory stubExtension)
    (hnames : ∀ x ∈ units.flatMap SourceUnit.placed, Names.IsDotted x.2.name)
    (honce : generateUnits (m := StateM FileTree) g.impatient units tree =
      ((results, returned, next), once))
    (hok : ∀ result ∈ results, writeError? result.2 = none) :
    SameFiles (fun _ => False) once after ∧
    (∀ stub ∈ g.impatient.due (units.flatMap SourceUnit.placed), ∃ place bytes,
      once.find (g.fileOf stub).1 = .ok (place, .file bytes) ∧
      after.find (g.fileOf stub).1 = .ok (place, .file bytes)) ∧
    final.registry.stubs.Perm next.registry.stubs := by
  have hc : Conservative g.impatient.printer.transform := hstandard ▸ conservative_standard protocol
  obtain ⟨earlier, hearlier, rfl, hwrites⟩ := h.writes hstandard hrules hnames
  obtain ⟨-, rfl, hfiles⟩ := pass_due hc hnames honce hok
  have hdue : ∀ stub ∈ g.impatient.due (units.flatMap SourceUnit.placed),
      Names.IsDotted stub.1 ∧ stub.2 ≠ "" := by
    intro stub hstub
    obtain ⟨x, hx, hrender, rfl⟩ := Generator.mem_due.mp hstub
    exact ⟨hnames x hx, Generator.text_stubFile_ne_empty hc x.1 hrender⟩
  generalize g.impatient.due (units.flatMap SourceUnit.placed) = all at *
  have hpaths : ∀ file ∈ earlier.map g.fileOf, ∃ other ∈ all.map g.fileOf, other.1 = file.1 := by
    rw [List.forall_mem_map]
    exact fun stub hstub => ⟨_, List.mem_map_of_mem (hearlier hstub), rfl⟩
  have hcontents : ∀ file ∈ earlier.map g.fileOf ++ all.map g.fileOf, file.2 ≠ "" := by
    rw [← List.map_append, List.forall_mem_map]
    exact fun stub hstub => (hdue stub ((List.mem_append.mp hstub).elim (@hearlier stub) id)).2
  have hdotted : ∀ n ∈ all.map Prod.fst, Names.IsDotted n := by
    rw [List.forall_mem_map]
    exact fun stub hstub => (hdue stub hstub).1
  rw [List.map_append] at hwrites
  refine ⟨hfiles.sameFiles_again hwrites hpaths hcontents, ?_, ?_⟩
  · exact fun stub hstub =>
      hfiles.find_again hwrites hpaths hcontents _ (List.mem_map_of_mem hstub)
  · rw [List.map_append]
    exact stubs_registerAll_perm hregistry hdotted (List.map_subset _ hearlier)

/-- A generator that waits for super classes leaves the same files as one pass of a generator that
waits for nothing over the units that it started with, on the tree that it started on: the stubs of
all classes that get a file, with the same contents. Both registered the same stubs. -/
theorem passes_as_once (model : DeclarationModel)
    (hnames : ∀ decl ∈ model.topLevel, Names.IsDotted decl.name) (settings : StubSettings)
    (index : ClassIndex) (protocol : List MethodDecl) (rules : List CallRule) (tree : FileTree)
    {patient lenient : Generator} {after once : FileTree} {units : List SourceUnit}
    {results : List (String × GenerateResult)}
    (hpasses : Passes
      (.start { settings with requireSuperResolved := true } index (.standard protocol)
        (rules.map CallRule.strategy))
      model.units tree patient after)
    (honce : generateUnits (m := StateM FileTree)
      (.start { settings with requireSuperResolved := false } index (.standard protocol)
        (rules.map CallRule.strategy))
      model.units tree = ((results, units, lenient), once))
    (hok : ∀ result ∈ results, writeError? result.2 = none) :
    SameFiles (fun _ => False) once after ∧
    (∀ name ∈ renderedNames model { settings with requireSuperResolved := false },
      ∃ place bytes,
        once.find (stubPath settings.outputDirectory name) = .ok (place, .file bytes) ∧
        after.find (stubPath settings.outputDirectory name) = .ok (place, .file bytes)) ∧
    patient.registry.stubs.Perm lenient.registry.stubs := by
  obtain ⟨hfiles, hfound, hstubs⟩ := hpasses.as_once rfl rfl rfl (fun x hx =>
    hnames x.2 (DeclarationModel.mem_topLevel_of_mem_placed hx)) honce hok
  refine ⟨hfiles, fun name hname => ?_, hstubs⟩
  have hdue := Generator.map_fst_due model (g := .start
    { settings with requireSuperResolved := false } index (.standard protocol)
    (rules.map CallRule.strategy))
  obtain ⟨stub, hstub, rfl⟩ := List.mem_map.mp (hdue.symm ▸ hname : name ∈ List.map Prod.fst _)
  exact hfound stub hstub

/-- A class in a package, and a class beside it that extends another one. -/
def besides (superClass : ClassType) : SourceUnit :=
  { classes := [{ name := "a.C" }, { name := "D", superClass }] }

/-- Where the super class is not known, the generator that waits writes one stub of the two. -/
theorem generateUnits_waiting {g : Generator} (hc : Conservative g.printer.transform)
    (hsettings : g.settings = { outputDirectory := ofString ".", requireSuperResolved := true }) :
    ∃ inner, generateUnits (m := StateM FileTree) g [besides (.unresolved "geo.Base")]
        (tangledFiles .empty .empty) =
      (([("a.C", .ok (.written (stubPath (ofString ".") "a.C"))),
          ("D", .ok (.skipped .unresolvedSuper))], [besides (.unresolved "geo.Base")],
          g.registerAll ["a.C"]), tangledFiles inner .empty) := by
  obtain ⟨inner, hfirst⟩ := attempt_inside (.inl rfl) hc (by rw [hsettings])
    (rfl : ClassDecl.name { name := "a.C" } = _) (by rw [Generator.decision, hsettings]; rfl)
    .empty .empty
  have hsecond : g.attempt (m := StateM FileTree) {}
      { name := "D", superClass := some (.unresolved "geo.Base") } (tangledFiles inner .empty) =
        (.ok (.skipped .unresolvedSuper), tangledFiles inner .empty) :=
    Generator.attempt_of_skip (by rw [Generator.decision, hsettings]; rfl)
  refine ⟨inner, ?_⟩
  have hplaced : List.flatMap SourceUnit.placed [besides (.unresolved "geo.Base")] =
      [({}, { name := "a.C" }),
        ({}, { name := "D", superClass := some (.unresolved "geo.Base") })] := rfl
  rw [generateUnits_apply hc]
  simp only [hplaced, Generator.attemptAll_cons, hfirst, hsecond]
  rfl

/-- Where no class waits, both stubs are written. -/
theorem generateUnits_besides {g : Generator} (hc : Conservative g.printer.transform)
    (hbase : g.settings.outputDirectory = ofString ".") (superClass : ClassType)
    (hrender : ∀ decl ∈ (besides superClass).classes, g.decision decl = .render)
    (inner outer : ByteArray) :
    ∃ inner' outer', generateUnits (m := StateM FileTree) g [besides superClass]
        (tangledFiles inner outer) =
      (([("a.C", .ok (.written (stubPath (ofString ".") "a.C"))),
          ("D", .ok (.written (stubPath (ofString ".") "D")))], [besides superClass],
          g.registerAll ["a.C", "D"]), tangledFiles inner' outer') := by
  obtain ⟨inner', hfirst⟩ := attempt_inside (.inl rfl) hc hbase
    (rfl : ClassDecl.name { name := "a.C" } = _) (hrender _ (by simp [besides])) inner outer
  obtain ⟨outer', hsecond⟩ := attempt_beside (.inl rfl) hc hbase
    (rfl : ClassDecl.name { name := "D", superClass } = _) (hrender _ (by simp [besides])) inner'
    outer
  refine ⟨inner', outer', ?_⟩
  have hplaced : List.flatMap SourceUnit.placed [besides superClass] =
      [({}, { name := "a.C" }), ({}, { name := "D", superClass })] := rfl
  rw [generateUnits_apply hc]
  simp only [hplaced, Generator.attemptAll_cons, hfirst, hsecond]
  rfl

/-- The class waits in a first pass, and both stubs are written in a second one. -/
theorem besides_passes (index : ClassIndex) (protocol : List MethodDecl)
    (strategies : List CallStrategy) :
    ∃ g after, Passes
      (.start { outputDirectory := ofString ".", requireSuperResolved := true } index
        (.standard protocol) strategies)
      [besides (.unresolved "geo.Base")] (tangledFiles .empty .empty) g after := by
  have hc : Conservative (Normalization.Transform.standard protocol) :=
    conservative_standard protocol
  generalize hg : Generator.start _ index (.standard protocol) strategies = g
  have hsettings : g.settings = { outputDirectory := ofString ".", requireSuperResolved := true } :=
    hg ▸ rfl
  have hprinter : g.printer.transform = .standard protocol := hg ▸ rfl
  rw [← hprinter] at hc
  have hrender : ∀ decl ∈ (besides (.ofName "geo.Base")).classes, g.decision decl = .render := by
    rw [besides, List.forall_mem_cons, List.forall_mem_singleton, Generator.decision,
      Generator.decision, hsettings]
    exact ⟨rfl, rfl⟩
  obtain ⟨inner, hfirst⟩ := generateUnits_waiting hc hsettings
  obtain ⟨inner', outer', hsecond⟩ := generateUnits_besides (g := g.registerAll ["a.C"]) hc
    (congrArg StubSettings.outputDirectory hsettings) (.ofName "geo.Base") hrender inner .empty
  have hunit : (besides (.unresolved "geo.Base")).Resolves (besides (.ofName "geo.Base")) :=
    ⟨rfl, .cons (.mk (.same none) .nil) (.cons (.mk (.known (.unresolved "geo.Base")) .nil) .nil)⟩
  refine ⟨_, _, .again hfirst (by simp [writeError?]) (.cons hunit .nil) (.last hsecond ?_ ?_)⟩
  · simp [writeError?]
  · decide +kernel

/-- The two classes, when the super class is not known. -/
def waiting : DeclarationModel := { units := [besides (.unresolved "geo.Base")] }

theorem waiting_as_once :
    ∃ (patient lenient : Generator) (after once : FileTree) (units : List SourceUnit)
      (results : List (String × GenerateResult)),
      Passes
        (.start { outputDirectory := ofString ".", requireSuperResolved := true } (.ofModel waiting)
          (.standard [.ofName "paint"]) CallStrategy.usual)
        waiting.units (tangledFiles .empty .empty) patient after ∧
      generateUnits (m := StateM FileTree)
        (.start { outputDirectory := ofString "." } (.ofModel waiting)
          (.standard [.ofName "paint"]) CallStrategy.usual)
        waiting.units (tangledFiles .empty .empty) = ((results, units, lenient), once) ∧
      (∀ result ∈ results, writeError? result.2 = none) ∧
      SameFiles (fun _ => False) once after ∧
      (∀ name ∈ ["a.C", "D"], ∃ place bytes,
        once.find (stubPath (ofString ".") name) = .ok (place, .file bytes) ∧
        after.find (stubPath (ofString ".") name) = .ok (place, .file bytes)) ∧
      patient.registry.stubs.Perm lenient.registry.stubs := by
  obtain ⟨patient, after, hpasses⟩ :=
    besides_passes (.ofModel waiting) [.ofName "paint"] CallStrategy.usual
  obtain ⟨inner, outer, honce⟩ := generateUnits_besides
    (g := .start { outputDirectory := ofString "." } (.ofModel waiting)
      (.standard [.ofName "paint"]) CallStrategy.usual)
    (conservative_standard [.ofName "paint"]) rfl (.unresolved "geo.Base")
    (List.forall_mem_cons.mpr ⟨rfl, List.forall_mem_singleton.mpr rfl⟩) .empty .empty
  obtain ⟨hfiles, hfound, hstubs⟩ := passes_as_once waiting (by decide +kernel)
    { outputDirectory := ofString "." } (.ofModel waiting) [.ofName "paint"] CallRule.usual _
    hpasses honce (by simp [writeError?])
  exact ⟨patient, _, after, _, _, _, hpasses, honce, by simp [writeError?], hfiles, hfound, hstubs⟩

end Stubs

end JavaStubs
