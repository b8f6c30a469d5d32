import JavaStubs.Proofs.StubPaths
import JavaStubs.Proofs.TreeUses

/-!
# What becomes of the classes of a model

Since printing gives every class back as it was, a generation is the same as trying the classes of
all units one after the other, each with the settings and the printer of the first generator. The
generator afterwards is the first one with the stubs registered that were written.
-/
namespace JavaStubs

/-- The classes of all units, in order, each with the imports of its unit. -/
def DeclarationModel.placed (model : DeclarationModel) : List (ImportSet × ClassDecl) :=
  model.units.flatMap fun unit => unit.classes.map fun decl => (unit.imports, decl)

theorem DeclarationModel.map_snd_placed (model : DeclarationModel) :
    model.placed.map Prod.snd = model.topLevel := by
  simp [placed, topLevel, List.map_flatMap, Function.comp_def]

theorem DeclarationModel.mem_topLevel_of_mem_placed {model : DeclarationModel}
    {x : ImportSet × ClassDecl} (h : x ∈ model.placed) : x.2 ∈ model.topLevel :=
  model.map_snd_placed ▸ List.mem_map_of_mem h

/-- What two reports say, one after the other. -/
def Report.Written.followedBy (first second : Report.Written) : Report.Written where
  written := first.written ++ second.written
  deferred := first.deferred ++ second.deferred
  skipped := first.skipped ++ second.skipped
  failures := first.failures ++ second.failures

theorem Report.Written.followedBy_assoc (first second third : Report.Written) :
    (first.followedBy second).followedBy third = first.followedBy (second.followedBy third) := by
  simp [followedBy]

namespace Stubs

open Files (Disk)

/-- The path of a stub that was written. -/
def writtenPath? : GenerateResult → Option Path
  | .ok (.written path) => some path
  | _ => none

/-- Why a stub could not be written. -/
def writeError? : GenerateResult → Option WriteError
  | .error error => some error
  | .ok _ => none

/-- What is recorded of a class stands behind what the report holds. -/
theorem recordResult_eq (base : Path) (report : Report.Written) (name : String)
    (result : GenerateResult) :
    recordResult base report name result =
      report.followedBy (recordResult base {} name result) := by
  cases result with
  | error error => simp [recordResult, Report.Written.followedBy]
  | ok generated =>
    cases generated with
    | written path => simp [recordResult, Report.Written.followedBy]
    | skipped reason => cases reason <;> simp [recordResult, Report.Written.followedBy]

/-- A report says what it says of the first class, and then what it says of the others. -/
theorem reportOn_cons (base : Path) (name : String) (result : GenerateResult)
    (rest : List (String × GenerateResult)) :
    reportOn base ((name, result) :: rest) =
      (recordResult base {} name result).followedBy (reportOn base rest) := by
  have hfold : ∀ report : Report.Written,
      rest.foldl (fun report x => recordResult base report x.1 x.2) report =
        report.followedBy (reportOn base rest) := by
    induction rest with
    | nil => simp [reportOn, Report.Written.followedBy]
    | cons first others ih =>
      obtain ⟨name, result⟩ := first
      intro report
      change others.foldl _ (recordResult base report name result) =
        report.followedBy (others.foldl _ (recordResult base {} name result))
      rw [ih, ih (recordResult base {} name result), recordResult_eq base report,
        Report.Written.followedBy_assoc]
  exact hfold _

/-- A report lists the stubs that were written and the failures in the order of the results. -/
theorem reportOn_eq (base : Path) (results : List (String × GenerateResult)) :
    (reportOn base results).written =
        results.filterMap (fun (_, result) => (writtenPath? result).map (relativeText base)) ∧
      (reportOn base results).failures =
        results.filterMap fun (name, result) =>
          (writeError? result).map fun error => ⟨name, error.description⟩ := by
  induction results with
  | nil => exact ⟨rfl, rfl⟩
  | cons first rest ih =>
    obtain ⟨name, result⟩ := first
    rw [reportOn_cons, Report.Written.followedBy, ih.1, ih.2]
    cases result with
    | error error => simp [recordResult, writtenPath?, writeError?]
    | ok generated =>
      cases generated with
      | written path => simp [recordResult, writtenPath?, writeError?]
      | skipped reason => cases reason <;> simp [recordResult, writtenPath?, writeError?]

namespace Generator

/-- The generator after a class came to that result. -/
def after (g : Generator) (decl : ClassDecl) : GenerateResult → Generator
  | .ok (.written _) => g.register (Path.ofDotted decl.name)
  | _ => g

section

variable {m : Type → Type} [Monad m] [Disk m]

/-- What becomes of one class. -/
def attempt (g : Generator) (imports : ImportSet) (decl : ClassDecl) : m GenerateResult :=
  match g.decision decl with
  | .skip reason => return .ok (.skipped reason)
  | .render => do
    let file := (g.stubFile imports decl).1
    let path := file.path g.settings.outputDirectory
    match ← Files.writeFile path file.text with
    | .ok () => return .ok (.written path)
    | .error cause => return .error ⟨path, cause⟩

/-- What becomes of classes, one after the other. -/
def attemptAll (g : Generator) :
    List (ImportSet × ClassDecl) → m (List (ClassDecl × GenerateResult))
  | [] => return []
  | (imports, decl) :: rest => do
    let result ← g.attempt imports decl
    let others ← g.attemptAll rest
    return (decl, result) :: others

/-- The generator after classes came to those results. -/
def afterAll (g : Generator) (results : List (ClassDecl × GenerateResult)) : Generator :=
  results.foldl (fun g (decl, result) => g.after decl result) g

/-- The results as they are reported, with the names of the classes. -/
def named (results : List (ClassDecl × GenerateResult)) : List (String × GenerateResult) :=
  results.map fun (decl, result) => (decl.name, result)

end

section

variable {m : Type → Type} [Monad m] [Disk m] {g : Generator}

theorem attempt_register (stub : Path) (imports : ImportSet) (decl : ClassDecl) :
    ((g.register stub).attempt imports decl : m _) = g.attempt imports decl := rfl

theorem attemptAll_after (decl : ClassDecl) (result : GenerateResult)
    (placed : List (ImportSet × ClassDecl)) :
    ((g.after decl result).attemptAll placed : m _) = g.attemptAll placed := by
  have hregister : ∀ stub, ((g.register stub).attemptAll placed : m _) = g.attemptAll placed := by
    intro stub
    induction placed with
    | nil => rfl
    | cons first rest ih => simp only [attemptAll, ih, attempt_register]
  unfold after
  split
  · exact hregister _
  · rfl

theorem attemptAll_afterAll (results : List (ClassDecl × GenerateResult))
    (placed : List (ImportSet × ClassDecl)) :
    ((g.afterAll results).attemptAll placed : m _) = g.attemptAll placed := by
  induction results generalizing g with
  | nil => rfl
  | cons result rest ih =>
    exact (ih (g := g.after result.1 result.2)).trans (attemptAll_after result.1 result.2 placed)

theorem printer_after (decl : ClassDecl) (result : GenerateResult) :
    (g.after decl result).printer = g.printer := by
  unfold after
  split <;> rfl

theorem printer_afterAll (results : List (ClassDecl × GenerateResult)) :
    (g.afterAll results).printer = g.printer := by
  induction results generalizing g with
  | nil => rfl
  | cons result rest ih =>
    exact (ih (g := g.after result.1 result.2)).trans (printer_after result.1 result.2)

theorem stubFile_stub (h : Conservative g.printer.transform) (imports : ImportSet)
    (decl : ClassDecl) : (g.stubFile imports decl).1.stub = Path.ofDotted decl.name := by
  simp only [stubFile, Printer.printInto_snd h]

variable [LawfulMonad m]

theorem generate_eq (h : Conservative g.printer.transform) (imports : ImportSet)
    (decl : ClassDecl) :
    (g.generate imports decl : m _) =
      (fun result => (result, decl, g.after decl result)) <$> g.attempt imports decl := by
  have hfile : (g.stubFile imports decl).2 = decl := stubFile_snd h imports
  cases hd : g.decision decl with
  | skip reason => simp [generate, attempt, hd, after]
  | render =>
    simp only [generate, attempt, hd, map_bind]
    congr 1
    funext written
    cases written <;> simp [hfile, after, stubFile_stub h]

theorem generateAll_eq (h : Conservative g.printer.transform) (imports : ImportSet)
    (decls : List ClassDecl) :
    (g.generateAll imports decls : m _) =
      (fun results => (named results, decls, g.afterAll results)) <$>
        g.attemptAll (decls.map fun decl => (imports, decl)) := by
  induction decls generalizing g with
  | nil => simp [generateAll, attemptAll, named, afterAll]
  | cons decl rest ih =>
    have hrest := fun result => ih (g := g.after decl result) (by rwa [printer_after])
    simp only [generateAll, List.map_cons, attemptAll, generate_eq h, hrest, bind_map_left,
      map_bind, map_pure, attemptAll_after]
    simp [named, afterAll]

theorem attemptAll_append (first second : List (ImportSet × ClassDecl)) :
    (g.attemptAll (first ++ second) : m _) = do
      let results ← g.attemptAll first
      let others ← g.attemptAll second
      return results ++ others := by
  induction first with
  | nil => simp [attemptAll]
  | cons placed rest ih => simp [attemptAll, ih]

end

end Generator

theorem previewAll_eq {g : Generator} (h : Conservative g.printer.transform) (imports : ImportSet)
    (decls : List ClassDecl) :
    previewAll g imports decls =
      (decls.filterMap fun decl => (g.preview imports decl).1, decls) := by
  induction decls with
  | nil => rfl
  | cons decl rest ih =>
    have hsame : (g.preview imports decl).2 = decl := Generator.preview_snd h imports
    simp only [previewAll, ih, hsame]
    cases hfile : (g.preview imports decl).1 <;> simp [hfile]

theorem previewUnits_eq {g : Generator} (h : Conservative g.printer.transform)
    (units : List SourceUnit) :
    previewUnits g units =
      ((units.flatMap fun unit => unit.classes.map fun decl => (unit.imports, decl)).filterMap
        fun (imports, decl) => (g.preview imports decl).1, units) := by
  induction units with
  | nil => rfl
  | cons unit rest ih =>
    simp [previewUnits, previewAll_eq h, ih, List.filterMap_map]

/-- A dry run lists the previews of the classes, and leaves the model as it was. -/
theorem previewModel_eq (model : DeclarationModel) (settings : StubSettings) :
    previewModel model settings =
      ({ outputDirectory := settings.outputDirectory.text
         classes := model.topLevelCount
         result := .preview ((model.placed.filterMap fun (imports, decl) =>
          ((modelGenerator model settings).preview imports decl).1).map
            fun file => (file.path, file.content)) }, model) := by
  have h : Conservative (modelGenerator model settings).printer.transform :=
    conservative_standard []
  simp only [previewModel, previewUnits_eq h, DeclarationModel.placed]

section

variable {m : Type → Type} [Monad m] [LawfulMonad m] [Disk m] {g : Generator}

open Generator (named)

theorem generateUnits_eq (h : Conservative g.printer.transform) (units : List SourceUnit) :
    (generateUnits g units : m _) =
      (fun results => (named results, units, g.afterAll results)) <$>
        g.attemptAll (units.flatMap fun unit => unit.classes.map fun decl => (unit.imports, decl)) := by
  induction units generalizing g with
  | nil => simp [generateUnits, Generator.attemptAll, named, Generator.afterAll]
  | cons unit rest ih =>
    have hrest := fun results => ih (g := g.afterAll results) (by rwa [Generator.printer_afterAll])
    simp only [generateUnits, Generator.generateUnit, Generator.generateAll_eq h, hrest,
      bind_map_left, List.flatMap_cons, Generator.attemptAll_append, map_bind, map_pure,
      bind_assoc, pure_bind, Generator.attemptAll_afterAll]
    simp [named, Generator.afterAll]

/-- A generation tries the classes of the model, reports the results, and leaves the model as it
was. -/
theorem generateModel_eq (model : DeclarationModel) (settings : StubSettings) :
    (generateModel model settings : m _) =
      (fun results =>
        ({ outputDirectory := settings.outputDirectory.text
           classes := model.topLevelCount
           result := .written (reportOn settings.outputDirectory (named results)) }, model)) <$>
        (modelGenerator model settings).attemptAll model.placed := by
  have h : Conservative (modelGenerator model settings).printer.transform :=
    conservative_standard []
  simp [generateModel, generateUnits_eq h, DeclarationModel.placed]

end

end Stubs

end JavaStubs
