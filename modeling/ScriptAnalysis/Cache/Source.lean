import ScriptAnalysis.Cache.Listings
import ScriptAnalysis.Cache.Snapshots

/-!
# The source cache

The cached view of one project: its snapshots and its directory listings. This is the
one place where changes of files and directories are applied.
-/

namespace ScriptAnalysis

/-- Snapshots and listings of one project. -/
structure SourceCache where
  snapshots : SnapshotCache
  directories : DirectoryCache

namespace SourceCache

/-- The cache that knows nothing. -/
def empty : SourceCache := ⟨SnapshotCache.empty, DirectoryCache.empty⟩

/-- Let an operation on the snapshots act on the whole. -/
def onSnapshots {α : Type} (cache : SourceCache)
    (operation : SnapshotCache → Traced (α × SnapshotCache)) : Traced (α × SourceCache) := do
  let (result, snapshots) ← operation cache.snapshots
  pure (result, { cache with snapshots := snapshots })

/-- Let an operation on the listings act on the whole. -/
def onDirectories {α : Type} (cache : SourceCache)
    (operation : DirectoryCache → Traced (α × DirectoryCache)) : Traced (α × SourceCache) := do
  let (result, directories) ← operation cache.directories
  pure (result, { cache with directories := directories })

/-- Take a pushed text as the content of a file. -/
def setContent (store : SourceStore) (path : SourcePath) (text : String) (cache : SourceCache) :
    Traced (Option Snapshot × SourceCache) :=
  cache.onSnapshots (SnapshotCache.setContent store path text)

/-- Read a file again. -/
def refresh (store : SourceStore) (path : SourcePath) (cache : SourceCache) :
    Traced (Option Snapshot × SourceCache) :=
  cache.onSnapshots (SnapshotCache.refresh store path)

/-- Forget a file. -/
def evict (path : SourcePath) (cache : SourceCache) : Bool × SourceCache :=
  let (wasTracked, snapshots) := cache.snapshots.evict path
  (wasTracked, { cache with snapshots := snapshots })

/-- Apply the change of a file, and say whether it was tracked. -/
def fileChanged (store : SourceStore) (path : SourcePath) (cache : SourceCache) :
    Traced (Bool × SourceCache) := do
  let (tracked, next) ← cache.onSnapshots (SnapshotCache.fileChanged store path)
  Traced.note (.fileChanged path tracked)
  pure (tracked, next)

/-- Apply the change of a directory to everything at or below it: tracked files are read
again and listings are dropped. Say whether anything was affected. -/
def directoryChanged (store : SourceStore) (directory : SourcePath) (cache : SourceCache) :
    Traced (Bool × SourceCache) := do
  let (files, next) ← cache.onSnapshots (SnapshotCache.refreshUnder store directory)
  let (listings, directories) := next.directories.invalidateUnder directory
  Traced.note (.directoryChanged directory files listings)
  pure (0 < files || 0 < listings, { next with directories := directories })

/-- The snapshot of a file, which is read if it is not tracked. -/
def snapshot (store : SourceStore) (path : SourcePath) (cache : SourceCache) :
    Traced (Option Snapshot × SourceCache) :=
  cache.onSnapshots (SnapshotCache.snapshot store path)

/-- The version of a file, which is read if it is not tracked. -/
def version (store : SourceStore) (path : SourcePath) (cache : SourceCache) :
    Traced (Option ContentHash × SourceCache) :=
  cache.onSnapshots (SnapshotCache.version store path)

/-- Whether the path is a directory. -/
def directoryExists (store : SourceStore) (path : SourcePath) (cache : SourceCache) :
    Traced (Bool × SourceCache) :=
  cache.onDirectories (DirectoryCache.directoryExists store path)

/-- The subdirectory names of a directory. -/
def subdirectories (store : SourceStore) (path : SourcePath) (cache : SourceCache) :
    Traced (List String × SourceCache) :=
  cache.onDirectories (DirectoryCache.list store path)

/-- The tracked files in ascending order. -/
def tracked (cache : SourceCache) : List SourcePath :=
  cache.snapshots.tracked

/-- Whether the file is tracked. -/
def isTracked (cache : SourceCache) (path : SourcePath) : Bool :=
  cache.snapshots.isTracked path

end SourceCache

end ScriptAnalysis
