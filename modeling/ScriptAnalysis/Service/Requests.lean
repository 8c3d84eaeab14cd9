import ScriptAnalysis.Service.Notification
import ScriptAnalysis.Service.Registry

/-!
# Requests

The three things that a caller can ask of a registry: take note of changes, diagnose a
file, and complete a name. Paths of files are normalised here. A failed request leaves
an event and never a half-changed project.
-/

namespace ScriptAnalysis.Registry

variable {σ : Type}

/-- Apply one change. -/
def apply (backend : Backend σ) (change : FileChange) (registry : Registry σ) :
    Traced (Bool × Registry σ) :=
  match change.kind with
  | .file => registry.fileChanged backend change.path.normalize
  | .directory => registry.directoryChanged backend change.path.normalize

/-- Apply changes in their order, and say whether any of them affected a project. -/
def applyAll (backend : Backend σ) :
    List FileChange → Registry σ → Traced (Bool × Registry σ)
  | [], registry => pure (false, registry)
  | change :: rest, registry => do
      let (first, next) ← registry.apply backend change
      let (others, final) ← applyAll backend rest next
      pure (first || others, final)

/-- Take note of changes. -/
def notify (backend : Backend σ) (notification : FileChangeNotification)
    (registry : Registry σ) : Traced (Bool × Registry σ) := do
  let (processed, next) ← registry.applyAll backend notification.changes
  Traced.note (.appliedNotification notification.changes.length processed)
  pure (processed, next)

/-- Let an operation act on the project of a root. -/
def onProject {α : Type} (backend : Backend σ) (root : SourcePath)
    (operation : Project σ → Traced (Except EngineError α × Project σ))
    (registry : Registry σ) : Traced (Except ServiceError α × Registry σ) := do
  match ← registry.getOrCreate backend root with
  | (.error error, same) => pure (.error (.internal error), same)
  | (.ok project, next) =>
      let (answer, changed) ← operation project
      pure (answer.mapError ServiceError.engine, next.insert root.normalize changed)

/-- Diagnose a file of the project at a root, with the given text for its content. -/
def diagnostics (backend : Backend σ) (root file : SourcePath) (code : String)
    (registry : Registry σ) : Traced (Except ServiceError Report × Registry σ) := do
  let (answer, next) ←
    registry.onProject backend root
      (Project.diagnostics backend.store backend.engine file.normalize code)
  match answer with
  | .error error => Traced.note (.diagnosticsFailed root file.normalize error.message)
  | .ok _ => pure ()
  pure (answer, next)

/-- List completions at a byte offset of a file of the project at a root. -/
def completions (backend : Backend σ) (root file : SourcePath) (code : String) (offset : Nat)
    (registry : Registry σ) : Traced (Except ServiceError CompletionReport × Registry σ) := do
  let (answer, next) ←
    registry.onProject backend root
      (Project.completions backend.store backend.engine file.normalize code offset)
  match answer with
  | .error error => Traced.note (.completionsFailed root file.normalize offset error.message)
  | .ok _ => pure ()
  pure (answer, next)

end ScriptAnalysis.Registry
