import JavaStubs.Command.Arguments
import JavaStubs.Input.Files
import JavaStubs.Stubs.Operations

/-!
# Running a command

A run reads the configuration and then the model, does its task, and ends with an exit code and the
lines for the terminal. The code is 0 if all went well, 1 if a file could not be read, written or
deleted, and 2 if the arguments are wrong.
-/
namespace JavaStubs.Command

open Files (Disk)
open Input (Config InputError)
open Report (OutputCall TerminalLine)
open Stubs (StubSettings RemovalError)

/-- How a run ends. -/
structure Ending where
  exitCode : Nat
  lines : List TerminalLine
  deriving DecidableEq

namespace Ending

/-- What the run writes to the standard output. -/
def output (ending : Ending) : String :=
  String.join <| ending.lines.map fun
    | .output text => text ++ "\n"
    | .error _ => ""

/-- What the run writes to the standard error stream. -/
def errors (ending : Ending) : String :=
  String.join <| ending.lines.map fun
    | .output _ => ""
    | .error text => text ++ "\n"

end Ending

/-- The lines that explain the arguments. -/
def helpLines : List String :=
  ["Generate Java stub skeletons for joint compilation",
   "",
   "Usage: skel [--log <FILTER>] generate|clean --model <MODEL> [OPTIONS]",
   "",
   "Options:",
   "  -m, --model <MODEL>           Path to the declaration model (JSON)",
   "  -c, --config <CONFIG>         Path to skel.toml (defaults to ./skel.toml when present)",
   "  -o, --output <OUTPUT>         Output directory (overrides skel.toml)",
   "      --dry-run                 Show what would be done without doing it",
   "      --no-generics             Render erased types instead of generics (generate)",
   "      --require-super-resolved  Defer classes whose super class is not resolved (generate)",
   "      --log <FILTER>            Log filter for diagnostics",
   "  -h, --help                    Print help",
   "  -V, --version                 Print version"]

/-- How a run ends that has no command to run. -/
def Refusal.ending : Refusal → Ending
  | .help => ⟨0, helpLines.map .output⟩
  | .version => ⟨0, [.output "skel 0.5.0"]⟩
  | .wrongArguments => ⟨2, [.error "error: wrong arguments; see `skel --help`"]⟩

/-- How a run ends that cannot use an input file. -/
def inputEnding (error : InputError) : Ending :=
  ⟨1, [.error (error.message ++ ": " ++ error.cause)]⟩

/-- How a run ends that cannot delete a stub. -/
def removalEnding (error : RemovalError) : Ending :=
  ⟨1, [.error ("Clean failed: " ++ error.message ++ ": " ++ error.cause.message)]⟩

/-- The lines of a report. -/
def reportLines (calls : List OutputCall) : List TerminalLine :=
  calls.map OutputCall.terminalLine

/-- How a generation ends. -/
def generateEnding (report : Report.GenerationReport) : Ending :=
  let failures := report.failureCount
  if failures = 0 then ⟨0, reportLines report.calls⟩
  else
    ⟨1, reportLines report.calls ++
      [.error ("Error: " ++ toString failures ++ " stubs could not be written")]⟩

/-- The settings of stubs: those of the configuration, unless the command says otherwise. -/
def Request.settings (request : Request) (config : Config) : StubSettings :=
  let outputDirectory := request.output.getD config.stubs.outputDirectory
  match request.task with
  | .clean => { config.stubs with outputDirectory }
  | .generate noGenerics requireSuperResolved =>
    { outputDirectory
      generics := config.stubs.generics && !noGenerics
      requireSuperResolved := config.stubs.requireSuperResolved || requireSuperResolved }

section

variable {m : Type → Type} [Monad m] [Disk m]

/-- Does the task with a model. -/
def Request.perform (request : Request) (settings : StubSettings) (model : DeclarationModel) :
    m Ending := do
  match request.task, request.dryRun with
  | .generate .., true => return generateEnding (Stubs.previewModel model settings).1
  | .generate .., false => return generateEnding (← Stubs.generateModel model settings).1
  | .clean, true =>
    let report ← Stubs.previewCleaning model settings
    return ⟨0, reportLines report.calls⟩
  | .clean, false =>
    match ← Stubs.cleanModel model settings with
    | .ok report => return ⟨0, reportLines report.calls⟩
    | .error error => return removalEnding error

/-- Runs a command. -/
def Request.run (request : Request) : m Ending := do
  match ← Input.loadConfig request.config with
  | .error error => return inputEnding error
  | .ok config =>
    match ← Input.openModel request.model with
    | .error error => return inputEnding error
    | .ok file => request.perform (request.settings config) file.model

/-- Runs a command line. -/
def run (arguments : List String) : m Ending :=
  match Request.parse arguments with
  | .error refusal => return refusal.ending
  | .ok request => request.run

end

end JavaStubs.Command
