import ScriptAnalysis.PathMap
import ScriptAnalysis.Service.Error
import ScriptAnalysis.Service.Pipeline

/-!
# The registry of projects

A `Registry` holds the projects of one process under their normal roots. A project comes
into being with the first request for its root and stays until the end. Changes
of files and directories go to every project, and a change of a configuration file
makes its project take on the new configuration.
-/

namespace ScriptAnalysis

/-- What the service works with: a store, a way to resolve a root, and an engine. -/
structure Backend (σ : Type) where
  store : SourceStore
  resolve : SourcePath → Traced (Except InternalError ResolvedProject)
  engine : Engine σ

/-- Resolve every root by the configuration file in the store. -/
def Backend.overStore {σ : Type} (store : SourceStore) (engine : Engine σ) :
    Backend σ where
  store := store
  resolve root := do
    let resolved ← resolveProject store root
    pure (.ok resolved)
  engine := engine

/-- The projects of one process. -/
structure Registry (σ : Type) where
  projects : PathMap (Project σ)
  /-- What holds for every project. -/
  options : HostOptions

namespace Registry

variable {σ : Type}

/-- The registry without projects. -/
def empty (options : HostOptions) : Registry σ :=
  ⟨PathMap.empty, options⟩

/-- The project of a root. -/
def find? (registry : Registry σ) (root : SourcePath) : Option (Project σ) :=
  registry.projects.find? root.normalize

/-- The number of projects. -/
def size (registry : Registry σ) : Nat :=
  registry.projects.size

/-- Whether there is no project. -/
def isEmpty (registry : Registry σ) : Bool :=
  registry.projects.isEmpty

/-- Put a project under a root. -/
def insert (registry : Registry σ) (root : SourcePath) (project : Project σ) : Registry σ :=
  { registry with projects := registry.projects.insert root project }

/-- The project of a root, which is resolved and built if it is not there. If it
cannot be resolved nothing changes. -/
def getOrCreate (backend : Backend σ) (root : SourcePath) (registry : Registry σ) :
    Traced (Except InternalError (Project σ) × Registry σ) :=
  let key := root.normalize
  match registry.projects.find? key with
  | some project => pure (.ok project, registry)
  | none => do
      match ← backend.resolve key with
      | .error error => pure (.error error, registry)
      | .ok resolved =>
          Traced.note (.createdEngine key)
          let project ←
            Project.create backend.store registry.options (backend.engine.create key) resolved
          pure (.ok project, registry.insert key project)

/-- Resolve a root again, if it has a project, and let the project take on the new
configuration. Say whether it did. -/
def reconfigure (backend : Backend σ) (root : SourcePath) (registry : Registry σ) :
    Traced (Bool × Registry σ) :=
  match registry.projects.find? root with
  | none => pure (false, registry)
  | some project => do
      match ← backend.resolve root with
      | .error error =>
          Traced.note (.keptConfiguration root error.message)
          pure (false, registry)
      | .ok resolved =>
          let next ← project.reconfigure backend.store resolved
          pure (true, registry.insert root next)

/-- Reconfigure several roots one after the other, and say whether any did. -/
def reconfigureAll (backend : Backend σ) :
    List SourcePath → Registry σ → Traced (Bool × Registry σ)
  | [], registry => pure (false, registry)
  | root :: rest, registry => do
      let (first, next) ← registry.reconfigure backend root
      let (others, final) ← reconfigureAll backend rest next
      pure (first || others, final)

/-- Let an operation act on the host of each project in turn, and say whether it was
`true` for any. -/
def visit (operation : Host → Traced (Bool × Host)) :
    List (SourcePath × Project σ) → Traced (Bool × List (SourcePath × Project σ))
  | [] => pure (false, [])
  | (root, project) :: rest => do
      let (first, next) ← project.onHost operation
      let (others, visited) ← visit operation rest
      pure (first || others, (root, next) :: visited)

/-- Let an operation act on the hosts of all projects. -/
def onHosts (operation : Host → Traced (Bool × Host)) (registry : Registry σ) :
    Traced (Bool × Registry σ) := do
  let (result, entries) ← visit operation registry.projects.entries
  pure (result, { registry with projects := ⟨entries⟩ })

/-- The root whose configuration the file is, by its name. -/
def configuredRoot? (file : SourcePath) : Option SourcePath :=
  if file.fileName = some configFileName then file.parent else none

/-- Apply the change of a file to every project. Say whether any project tracked it or
was reconfigured. -/
def fileChanged (backend : Backend σ) (file : SourcePath) (registry : Registry σ) :
    Traced (Bool × Registry σ) := do
  let (reconfigured, next) ←
    registry.reconfigureAll backend (configuredRoot? file).toList
  let (tracked, final) ← next.onHosts (Host.fileChanged backend.store file)
  pure (reconfigured || tracked, final)

/-- The roots whose configuration file is at or below a directory. -/
def rootsUnder (registry : Registry σ) (directory : SourcePath) : List SourcePath :=
  registry.projects.keys.filter fun root => (configFile root).within directory

/-- Apply the change of a directory to every project. Say whether any project was
affected. -/
def directoryChanged (backend : Backend σ) (directory : SourcePath) (registry : Registry σ) :
    Traced (Bool × Registry σ) := do
  let (reconfigured, next) ← registry.reconfigureAll backend (registry.rootsUnder directory)
  let (affected, final) ← next.onHosts (Host.directoryChanged backend.store directory)
  pure (reconfigured || affected, final)

end Registry

end ScriptAnalysis
