import ScriptAnalysis.Engine.Wire
import ScriptAnalysis.Service.Project

/-!
# The pipeline of a request

A diagnostics request goes through stages: the configuration, the engine's three queries
taken together, and the linter. The first stage with findings ends the request with
them. `Project.diagnostics` and `Project.completions` both begin by taking the pushed
text as the content of the file, unless the configuration is broken.
-/

namespace ScriptAnalysis

/-- The answer to a completion request. -/
structure CompletionReport where
  /-- The candidates by sort key, then by name. -/
  entries : List CompletionEntry
  deriving DecidableEq, Repr

namespace CompletionReport

/-- The report as JSON. -/
def toJson (report : CompletionReport) : Json :=
  .object [("entries", .array (report.entries.map CompletionEntry.toJson))]

/-- How a report is read. -/
def record : Json.Record (Option (List CompletionEntry)) CompletionReport where
  name := "CompletionReport"
  fields :=
    [⟨"entries", fun value _ => (Json.decodeList CompletionEntry.decode value).map some, false⟩]
  strict := false
  start := none
  finish draft := (Json.required "entries" draft).map CompletionReport.mk

/-- Read a report from JSON. -/
def decode : Json.Decoder CompletionReport :=
  record.decode

/-- Whether a candidate does not stand after another one. -/
def notAfter (left right : CompletionEntry) : Bool :=
  left.sortText < right.sortText || (left.sortText == right.sortText && left.name ≤ right.name)

/-- The report with the given candidates. The sort is stable. -/
def ofEntries (entries : List CompletionEntry) : CompletionReport :=
  ⟨entries.mergeSort notAfter⟩

end CompletionReport

namespace Project

variable {σ : Type}

/-- What stands between the messages of a chain when it becomes one diagnostic. -/
def messageSeparator : String := " "

/-- The diagnostic for a finding of the engine. Its position is found in the snapshot
that the host serves for the file it is about. -/
def report (store : SourceStore) (kind : DiagnosticKind) (finding : EngineDiagnostic)
    (host : Host) : Traced (Diagnostic × Host) := do
  let made := Diagnostic.compiler kind ⟨finding.code⟩ (finding.message.flatten messageSeparator)
  match finding.location with
  | none => pure (made none, host)
  | some location =>
      let (snapshot, next) ← host.snapshot store location.file
      pure (made (snapshot.map fun snapshot => snapshot.positionAt location.start), next)

/-- A query of the engine and the kind of its findings. -/
structure Stage (σ : Type) where
  kind : DiagnosticKind
  query : EngineQuery
  inquiry : SourcePath → σ → EngineAnswer σ (List EngineDiagnostic)

/-- The three stages of an engine in their order. -/
def stages (engine : Engine σ) : List (Stage σ) :=
  [⟨.declaration, .declaration, engine.declaration⟩, ⟨.semantic, .semantic, engine.semantic⟩,
    ⟨.syntactic, .syntactic, engine.syntactic⟩]

/-- Run stages one after the other and collect their diagnostics. The first failure ends
the run. -/
def runStages (store : SourceStore) (file : SourcePath) :
    List (Stage σ) → Project σ → Traced (Except EngineError (List Diagnostic) × Project σ)
  | [], project => pure (.ok [], project)
  | stage :: rest, project => do
      match ← project.consult store stage.query file (stage.inquiry file) with
      | (.error error, next) => pure (.error error, next)
      | (.ok findings, next) =>
          let (reported, next) ←
            next.onHost (Traced.mapState (report store stage.kind) findings)
          match ← runStages store file rest next with
          | (.error error, final) => pure (.error error, final)
          | (.ok others, final) => pure (.ok (reported ++ others), final)

/-- Run the linter on the content of a file, if there is a linter and a content. -/
def runLinter (store : SourceStore) (file : SourcePath) (project : Project σ) :
    Traced (List Diagnostic × Project σ) :=
  match project.linter with
  | none => pure ([], project)
  | some linter => do
      let (snapshot, next) ← project.onHost (Host.snapshot store file)
      pure ((snapshot.map linter.run).getD [], next)

/-- Diagnose a file with the given text for its content; no text means to read it. -/
def diagnostics (store : SourceStore) (engine : Engine σ) (file : SourcePath) (code : String)
    (project : Project σ) : Traced (Except EngineError Report × Project σ) :=
  if project.configurationErrors.isEmpty then do
    let (_, pushed) ← project.onHost (Host.setContent store file code)
    match ← runStages store file (stages engine) pushed with
    | (.error error, next) => pure (.error error, next)
    | (.ok [], next) =>
        let (found, final) ← next.runLinter store file
        pure (.ok ⟨found⟩, final)
    | (.ok found, next) => pure (.ok ⟨found⟩, next)
  else pure (.ok ⟨project.configurationErrors⟩, project)

/-- List completions at a byte offset of a file. The offset must be inside the content,
if there is any. -/
def completions (store : SourceStore) (engine : Engine σ) (file : SourcePath) (code : String)
    (offset : Nat) (project : Project σ) :
    Traced (Except EngineError CompletionReport × Project σ) :=
  if project.configurationErrors.isEmpty then do
    let (_, pushed) ← project.onHost (Host.setContent store file code)
    let (snapshot, next) ← pushed.onHost (Host.snapshot store file)
    if snapshot.any fun snapshot => snapshot.length < offset then
      pure (.error (.offsetOutOfRange file offset), next)
    else
      match ← next.consult store (.completions offset) file (engine.completions file offset) with
      | (.error error, final) => pure (.error error, final)
      | (.ok entries, final) => pure (.ok (.ofEntries entries), final)
  else pure (.ok ⟨[]⟩, project)

end Project

end ScriptAnalysis
