import ScriptAnalysis.Command.Arguments
import ScriptAnalysis.Command.Transcript
import ScriptAnalysis.Diagnostic.Renderer
import ScriptAnalysis.Json.Printer
import ScriptAnalysis.Service.Requests

/-!
# The check command

`Check.run` diagnoses the given files one after the other in one project, writes all
findings down as text or as JSON, and fails if any of them is an error.
-/

namespace ScriptAnalysis.Check

variable {σ : Type}

/-- A file and its report. -/
structure FileReport where
  file : SourcePath
  report : Report
  deriving DecidableEq, Repr

/-- The report of a file as JSON. -/
def FileReport.toJson (entry : FileReport) : Json :=
  .object [("file", .string entry.file.text), ("report", entry.report.toJson)]

/-- Diagnose files by what is in the store. The first failure ends the run. -/
def diagnoseAll (backend : Backend σ) (root : SourcePath) :
    List SourcePath → Registry σ → Traced (Except ServiceError (List FileReport) × Registry σ)
  | [], registry => pure (.ok [], registry)
  | file :: rest, registry => do
      match ← registry.diagnostics backend root file "" with
      | (.error error, next) => pure (.error error, next)
      | (.ok report, next) =>
          match ← diagnoseAll backend root rest next with
          | (.error error, final) => pure (.error error, final)
          | (.ok others, final) => pure (.ok (⟨file, report⟩ :: others), final)

/-- All findings. -/
def findings (reports : List FileReport) : List Diagnostic :=
  reports.flatMap fun entry => entry.report.errors

/-- The number of errors. -/
def errorCount (reports : List FileReport) : Nat :=
  (findings reports).countP fun diagnostic => diagnostic.kind.isCompiler

/-- The number of warnings. -/
def warningCount (reports : List FileReport) : Nat :=
  (findings reports).countP fun diagnostic => !diagnostic.kind.isCompiler

/-- One for a run with errors, and otherwise zero. Warnings alone do not fail. -/
def exitCode (reports : List FileReport) : Nat :=
  if errorCount reports = 0 then 0 else 1

/-- The last line of a run. -/
def summary (reports : List FileReport) : String :=
  "   Result: " ++ toString (errorCount reports) ++ " error(s), " ++
    toString (warningCount reports) ++ " warning(s)\n"

/-- The content of a file in the project of a root, for quoting. -/
def content (backend : Backend σ) (root file : SourcePath) (registry : Registry σ) :
    Traced (Option Snapshot × Registry σ) :=
  match registry.find? root with
  | none => pure (none, registry)
  | some project => do
      let (snapshot, next) ← project.onHost (Host.snapshot backend.store file)
      pure (snapshot, registry.insert root.normalize next)

/-- The findings of a file as a terminal shows them, with a blank line after each. -/
def shown (entry : FileReport) (source : Option Snapshot) : String :=
  String.join (entry.report.errors.map fun diagnostic =>
    (Renderer.mk true).render entry.file diagnostic source ++ "\n")

/-- Write the findings of all files as text. -/
def writeText (backend : Backend σ) (root : SourcePath) :
    List FileReport → Registry σ → List Emission
  | [], _ => []
  | entry :: rest, registry =>
      let read := content backend root entry.file registry
      read.emissions ++ .complaint (shown entry read.value.1) ::
        writeText backend root rest read.value.2

/-- Write the findings of all files as JSON. -/
def writeJson (reports : List FileReport) : List Emission :=
  [.output ((Json.array (reports.map FileReport.toJson)).pretty 0 ++ "\n")]

/-- Write all findings in a format, with a summary after a text unless it is unwanted. -/
def write (backend : Backend σ) (root : SourcePath) (format : ReportFormat) (quiet : Bool)
    (reports : List FileReport) (registry : Registry σ) : List Emission :=
  match format with
  | .json => writeJson reports
  | .text =>
      writeText backend root reports registry ++
        if quiet then [] else [.complaint (summary reports)]

/-- The end of a command that could not do its work. -/
def failure (error : ServiceError) : List Emission :=
  [.event (.commandFailed error.message), .complaint ("error: " ++ error.message ++ "\n")]

/-- Check files. Paths begin at the working directory. -/
def run (backend : Backend σ) (options : HostOptions) (workingDirectory : SourcePath)
    (quiet : Bool) (root : SourcePath) (files : List SourcePath) (format : ReportFormat) :
    Transcript :=
  let root := workingDirectory.combine root
  let files := files.map workingDirectory.combine
  let diagnosed := diagnoseAll backend root files (Registry.empty options)
  match diagnosed.value with
  | (.error error, _) => ⟨diagnosed.emissions ++ failure error, 1⟩
  | (.ok reports, registry) =>
      ⟨diagnosed.emissions ++ write backend root format quiet reports registry, exitCode reports⟩

end ScriptAnalysis.Check
