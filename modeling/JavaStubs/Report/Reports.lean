import JavaStubs.Report.Output
import JavaStubs.Text.Split

/-!
# Reports

What is said after stubs were generated, previewed or deleted.
-/
namespace JavaStubs.Report

/-- A name and what is said of it. -/
structure Remark where
  name : String
  text : String
  deriving DecidableEq, Repr

/-- What became of the classes of a model. -/
structure Written where
  /-- The paths of the stubs, relative to the output directory. -/
  written : List String := []
  /-- Classes that wait for their super class. -/
  deferred : List String := []
  /-- Classes without a file, and why. -/
  skipped : List Remark := []
  /-- Classes whose stub could not be written, and why. -/
  failures : List Remark := []
  deriving DecidableEq, Repr

/-- What a generation came to. -/
inductive Generation where
  | written (result : Written)
  /-- The paths and contents of the stubs that would be written. -/
  | preview (files : List (String × String))
  deriving DecidableEq, Repr

/-- The report of a generation. -/
structure GenerationReport where
  outputDirectory : String
  /-- The number of top-level classes of the model. -/
  classes : Nat
  result : Generation
  deriving DecidableEq, Repr

namespace Written

/-- One warning for every failure. -/
def warnings (result : Written) : List OutputCall :=
  result.failures.map fun failure => .warning (failure.name ++ ": " ++ failure.text)

/-- The stubs that were written. -/
def stubs (result : Written) : List OutputCall :=
  if result.written.isEmpty then []
  else .heading ("Stubs (" ++ toString result.written.length ++ ")") ::
    result.written.map .addedItem

/-- The classes that wait. -/
def waiting (result : Written) : List OutputCall :=
  if result.deferred.isEmpty then []
  else .newline :: .heading "Deferred (super class not resolved)" ::
    result.deferred.map .listItem

/-- The classes without a file. -/
def leftOut (result : Written) : List OutputCall :=
  if result.skipped.isEmpty then []
  else .newline :: .heading "Skipped" ::
    result.skipped.map fun skipped => .listItem (skipped.name ++ " (" ++ skipped.text ++ ")")

end Written

namespace GenerationReport

/-- The number of stubs that could not be written. -/
def failureCount (report : GenerationReport) : Nat :=
  match report.result with
  | .written result => result.failures.length
  | .preview _ => 0

/-- What the report shows. -/
def calls (report : GenerationReport) : List OutputCall :=
  match report.result with
  | .written result =>
    result.warnings ++ result.stubs ++ result.waiting ++ result.leftOut ++
      [.newline,
       .keyValue "Generated"
        (toString result.written.length ++ " of " ++ toString report.classes ++
          " declarations in " ++ report.outputDirectory)]
  | .preview files =>
    (files.flatMap fun (path, content) => [.divider path, .preformatted content]) ++
      [.divider "Summary",
       .preformatted (toString files.length ++ " stubs would be generated")]

end GenerationReport

/-- The report of a cleaning. -/
structure CleaningReport where
  /-- Whether nothing was deleted yet. -/
  dryRun : Bool
  deleted : List String
  missing : List String
  deriving DecidableEq, Repr

/-- What the report shows. -/
def CleaningReport.calls (report : CleaningReport) : List OutputCall :=
  if report.deleted.isEmpty then [.preformatted "No generated stubs found."]
  else
    .heading (if report.dryRun then "Would delete" else "Deleted") ::
      report.deleted.map .removedItem ++
      (if report.missing.isEmpty then []
        else [.newline, .keyValue "Already removed" (toString report.missing.length)])

end JavaStubs.Report
