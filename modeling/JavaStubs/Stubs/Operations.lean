import JavaStubs.Report.Reports
import JavaStubs.Stubs.Generator

/-!
# Generating and cleaning for a model

The two things that can be done with a model: generating the stubs of all its top-level classes, and
deleting the stubs that it would generate. Both can be done dry, which touches no file.
-/
namespace JavaStubs.Stubs

open Files (Disk)
open Report (CleaningReport GenerationReport Remark Written)

/-- Paths are shown relative to the output directory where they lie in it. -/
def relativeText (base path : Path) : String :=
  ((path.stripBase? base).getD path).text

/-- A failure and its cause in one line. -/
def WriteError.description (error : WriteError) : String :=
  error.message ++ ": " ++ error.cause.message

/-- The report with what became of one more class. -/
def recordResult (base : Path) (report : Written) (name : String) : GenerateResult → Written
  | .ok (.written path) => { report with written := report.written ++ [relativeText base path] }
  | .ok (.skipped .unresolvedSuper) => { report with deferred := report.deferred ++ [name] }
  | .ok (.skipped reason) =>
    { report with skipped := report.skipped ++ [⟨name, reason.message⟩] }
  | .error error =>
    { report with failures := report.failures ++ [⟨name, error.description⟩] }

/-- The report on classes with their results. -/
def reportOn (base : Path) (results : List (String × GenerateResult)) : Written :=
  results.foldl (fun report (name, result) => recordResult base report name result) {}

/-- The previews of classes, and the classes afterwards. -/
def previewAll (g : Generator) (imports : ImportSet) :
    List ClassDecl → List Preview × List ClassDecl
  | [] => ([], [])
  | decl :: rest =>
    let (file, decl) := g.preview imports decl
    let (files, rest) := previewAll g imports rest
    (file.toList ++ files, decl :: rest)

/-- The previews of units, and the units afterwards. -/
def previewUnits (g : Generator) : List SourceUnit → List Preview × List SourceUnit
  | [] => ([], [])
  | unit :: rest =>
    let (files, classes) := previewAll g unit.imports unit.classes
    let (others, rest) := previewUnits g rest
    (files ++ others, { unit with classes } :: rest)

/-- The generator that a generation starts with. -/
def modelGenerator (model : DeclarationModel) (settings : StubSettings) : Generator :=
  .start settings (ClassIndex.ofModel model)

/-- The preview of a generation, and the model afterwards. -/
def previewModel (model : DeclarationModel) (settings : StubSettings) :
    GenerationReport × DeclarationModel :=
  let (files, units) := previewUnits (modelGenerator model settings) model.units
  ({ outputDirectory := settings.outputDirectory.text
     classes := model.topLevelCount
     result := .preview (files.map fun file => (file.path, file.content)) },
    { model with units })

section

variable {m : Type → Type} [Monad m] [Disk m]

/-- Generates units one after the other. -/
def generateUnits (g : Generator) :
    List SourceUnit → m (List (String × GenerateResult) × List SourceUnit × Generator)
  | [] => return ([], [], g)
  | unit :: rest => do
    let (results, unit, g) ← g.generateUnit unit
    let (others, rest, g) ← generateUnits g rest
    return (results ++ others, unit :: rest, g)

/-- Generates the stubs of a model; gives back the model afterwards, too. -/
def generateModel (model : DeclarationModel) (settings : StubSettings) :
    m (GenerationReport × DeclarationModel) := do
  let (results, units, _) ← generateUnits (modelGenerator model settings) model.units
  let report : GenerationReport :=
    { outputDirectory := settings.outputDirectory.text
      classes := model.topLevelCount
      result := .written (reportOn settings.outputDirectory results) }
  return (report, { model with units })

/-- The stubs that a model would generate, registered in order. -/
def registryOf (model : DeclarationModel) (settings : StubSettings) : Registry :=
  let rendered := model.topLevel.filter fun decl => settings.decision decl = .render
  rendered.foldl (fun registry decl => registry.register (Path.ofDotted decl.name))
    (Registry.empty settings.outputDirectory stubExtension)

/-- What cleaning would delete. -/
def previewCleaning (model : DeclarationModel) (settings : StubSettings) : m CleaningReport := do
  let deleted ← (registryOf model settings).wouldDelete
  return { dryRun := true, deleted := deleted.map Path.text, missing := [] }

/-- Deletes the stubs of a model. -/
def cleanModel (model : DeclarationModel) (settings : StubSettings) :
    m (Except RemovalError CleaningReport) := do
  let (result, _) ← (registryOf model settings).clean
  return result.map fun cleaned =>
    { dryRun := false
      deleted := cleaned.deleted.map Path.text
      missing := cleaned.missing.map Path.text }

end

end JavaStubs.Stubs
