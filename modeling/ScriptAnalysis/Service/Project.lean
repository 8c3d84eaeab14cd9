import ScriptAnalysis.Config.Resolve
import ScriptAnalysis.Engine
import ScriptAnalysis.Lint.Linter

/-!
# Projects

A `Project` is what is kept for one root between requests: its host with the caches, the
state of its engine, its linter and what is wrong with its configuration. A new
configuration replaces the last two and the settings, and leaves the caches warm.
-/

namespace ScriptAnalysis

/-- What is kept for one root, with an engine whose states have type `σ`. -/
structure Project (σ : Type) where
  host : Host
  engineState : σ
  /-- The linter, if the configuration enables the lint stage. -/
  linter : Option Linter
  /-- What is wrong with the configuration. While there is anything, it is the answer to
  every diagnostics request. -/
  configurationErrors : List Diagnostic

namespace Project

variable {σ : Type}

/-- The root of the project. -/
def root (project : Project σ) : SourcePath :=
  project.host.root

/-- Whether the lint stage is enabled. -/
def isLinted (project : Project σ) : Bool :=
  project.linter.isSome

/-- Build a project from its configuration, with all configured files read. -/
def create (store : SourceStore) (options : HostOptions) (engineState : σ)
    (resolved : ResolvedProject) : Traced (Project σ) := do
  let host := Host.create resolved.root resolved.settings options
  let (loaded, host) ← host.preload store resolved.rootFiles
  Traced.note
    (.createdProject resolved.root loaded resolved.errors.length resolved.lint.isSome)
  pure ⟨host, engineState, resolved.lint.map Linter.ofConfig, resolved.errors⟩

/-- Take on a new configuration. Every cached snapshot stays, and configured files that
are not cached are read. -/
def reconfigure (store : SourceStore) (resolved : ResolvedProject) (project : Project σ) :
    Traced (Project σ) := do
  let (loaded, host) ← (project.host.withSettings resolved.settings).preload store resolved.rootFiles
  Traced.note (.reconfiguredProject project.root loaded resolved.errors.length)
  pure { project with
    host := host
    linter := resolved.lint.map Linter.ofConfig
    configurationErrors := resolved.errors }

/-- Let an operation on the host act on the project. -/
def onHost {α : Type} (project : Project σ) (operation : Host → Traced (α × Host)) :
    Traced (α × Project σ) := do
  let (result, host) ← operation project.host
  pure (result, { project with host := host })

/-- Put one query to the engine. -/
def consult {α : Type} (store : SourceStore) (query : EngineQuery) (file : SourcePath)
    (inquiry : σ → EngineAnswer σ α) (project : Project σ) :
    Traced (Except EngineError α × Project σ) := do
  Traced.note (.asked query file)
  let ((answer, engineState), host) ← (inquiry project.engineState).run store project.host
  pure (answer, { project with engineState := engineState, host := host })

end Project

end ScriptAnalysis
