import ScriptAnalysis.Cache.Source
import ScriptAnalysis.Config.Settings
import ScriptAnalysis.ScriptKind

/-!
# Hosts

A `Host` shows one project to an engine: its settings, its files and its directories. What
an engine may ask is a `HostQuestion`. Questions about files and directories fill the
caches on the way; they never fail.
-/

namespace ScriptAnalysis

/-- One project as an engine sees it. -/
structure Host where
  root : SourcePath
  settings : CompilationSettings
  options : HostOptions
  cache : SourceCache

/-- What an engine may ask its host. -/
inductive HostQuestion where
  | compilationSettings
  | newLine
  /-- The tracked files that are root scripts. -/
  | scriptFileNames
  | scriptKind (path : SourcePath)
  | scriptVersion (path : SourcePath)
  | scriptSnapshot (path : SourcePath)
  | currentDirectory
  | defaultLibrary (settings : CompilationSettings)
  | caseSensitiveFileNames
  | directoryExists (path : SourcePath)
  | directories (path : SourcePath)
  /-- A message for the log. -/
  | trace (message : String)
  /-- A complaint for the log. -/
  | complaint (message : String)

/-- The type of the answer to each question. -/
def HostQuestion.Answer : HostQuestion → Type
  | .compilationSettings => CompilationSettings
  | .newLine => String
  | .scriptFileNames => List SourcePath
  | .scriptKind _ => ScriptKind
  | .scriptVersion _ => Option ContentHash
  | .scriptSnapshot _ => Option Snapshot
  | .currentDirectory => SourcePath
  | .defaultLibrary _ => SourcePath
  | .caseSensitiveFileNames => Bool
  | .directoryExists _ => Bool
  | .directories _ => List String
  | .trace _ => Unit
  | .complaint _ => Unit

namespace Host

/-- A host whose caches are empty. -/
def create (root : SourcePath) (settings : CompilationSettings) (options : HostOptions) : Host :=
  ⟨root, settings, options, SourceCache.empty⟩

/-- The tracked files in ascending order. -/
def tracked (host : Host) : List SourcePath :=
  host.cache.tracked

/-- Let an operation on the cache act on the host. -/
def onCache {α : Type} (host : Host) (operation : SourceCache → Traced (α × SourceCache)) :
    Traced (α × Host) := do
  let (result, cache) ← operation host.cache
  pure (result, { host with cache := cache })

/-- Read files into the cache, and count those with content. -/
def preload (store : SourceStore) : List SourcePath → Host → Traced (Nat × Host)
  | [], host => pure (0, host)
  | file :: rest, host => do
      let (snapshot, next) ← host.onCache (SourceCache.snapshot store file)
      let (count, final) ← preload store rest next
      pure ((if snapshot.isSome then count + 1 else count), final)

/-- Take a pushed text as the content of a file. -/
def setContent (store : SourceStore) (path : SourcePath) (text : String) (host : Host) :
    Traced (Option ContentHash × Host) := do
  let (snapshot, next) ← host.onCache (SourceCache.setContent store path text)
  pure (snapshot.map Snapshot.version, next)

/-- Apply the change of a file, and say whether it was tracked. -/
def fileChanged (store : SourceStore) (path : SourcePath) (host : Host) : Traced (Bool × Host) :=
  host.onCache (SourceCache.fileChanged store path)

/-- Apply the change of a directory, and say whether anything was affected. -/
def directoryChanged (store : SourceStore) (directory : SourcePath) (host : Host) :
    Traced (Bool × Host) :=
  host.onCache (SourceCache.directoryChanged store directory)

/-- Set other compiler settings. -/
def withSettings (host : Host) (settings : CompilationSettings) : Host :=
  { host with settings := settings }

/-- The snapshot of a file, which is read if it is not tracked. -/
def snapshot (store : SourceStore) (path : SourcePath) (host : Host) :
    Traced (Option Snapshot × Host) :=
  host.onCache (SourceCache.snapshot store path)

/-- The library that the settings ask for. -/
def defaultLibrary (host : Host) (settings : CompilationSettings) : SourcePath :=
  DefaultLibrary.path host.options.toolchainDirectory settings.target?

/-- Answer a question. -/
def answer (store : SourceStore) (host : Host) :
    (question : HostQuestion) → Traced (question.Answer × Host)
  | .compilationSettings => pure (host.settings, host)
  | .newLine => pure (("\n" : String), host)
  | .scriptFileNames => pure (host.tracked.filter SourcePath.isRootScript, host)
  | .scriptKind path => pure (ScriptKind.ofPath path, host)
  | .scriptVersion path => host.onCache (SourceCache.version store path)
  | .scriptSnapshot path => host.snapshot store path
  | .currentDirectory => pure (host.root, host)
  | .defaultLibrary settings => pure (host.defaultLibrary settings, host)
  | .caseSensitiveFileNames => pure (host.options.caseSensitiveFileNames, host)
  | .directoryExists path => host.onCache (SourceCache.directoryExists store path)
  | .directories path => host.onCache (SourceCache.subdirectories store path)
  | .trace message => do
      Traced.note (.engineTrace host.root message)
      pure ((), host)
  | .complaint message => do
      Traced.note (.engineComplaint host.root message)
      pure ((), host)

end Host

end ScriptAnalysis
