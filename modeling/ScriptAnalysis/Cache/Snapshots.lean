import ScriptAnalysis.PathMap
import ScriptAnalysis.Snapshot
import ScriptAnalysis.Store

/-!
# The snapshot cache

One snapshot for each tracked file. A snapshot is never changed, only replaced, and
stays as it is while the version of its text is the same. Empty text is never kept:
pushing or reading an empty file removes the snapshot instead.
-/

namespace ScriptAnalysis

/-- The snapshots of the tracked files. -/
structure SnapshotCache where
  entries : PathMap Snapshot

namespace SnapshotCache

/-- The cache without snapshots. -/
def empty : SnapshotCache := ⟨PathMap.empty⟩

/-- The snapshot of a file, if it is tracked; the store is not asked. -/
def cached? (cache : SnapshotCache) (path : SourcePath) : Option Snapshot :=
  cache.entries.find? path

/-- Whether the file is tracked. -/
def isTracked (cache : SnapshotCache) (path : SourcePath) : Bool :=
  cache.entries.contains path

/-- The tracked files in ascending order. -/
def tracked (cache : SnapshotCache) : List SourcePath :=
  cache.entries.keys

/-- Keep a text as the content of a file. A snapshot of the same version stays. -/
def keep (cache : SnapshotCache) (path : SourcePath) (text : String) :
    Snapshot × SnapshotCache :=
  let fresh := Snapshot.capture path text
  match cache.cached? path with
  | some existing =>
      if existing.version = fresh.version then (existing, cache)
      else (fresh, ⟨cache.entries.insert path fresh⟩)
  | none => (fresh, ⟨cache.entries.insert path fresh⟩)

/-- Forget a file, and say whether it was tracked. -/
def evict (cache : SnapshotCache) (path : SourcePath) : Bool × SnapshotCache :=
  (cache.isTracked path, ⟨cache.entries.erase path⟩)

/-- Read a file again: its text is kept, and a file that is missing or empty is
forgotten. -/
def refresh (store : SourceStore) (path : SourcePath) (cache : SnapshotCache) :
    Traced (Option Snapshot × SnapshotCache) := do
  match ← store.readNonEmpty path with
  | some text =>
      let (snapshot, next) := cache.keep path text
      pure (some snapshot, next)
  | none =>
      let (wasTracked, next) := cache.evict path
      if wasTracked then
        Traced.note (.evicted path)
        pure (none, next)
      else pure (none, cache)

/-- Take a pushed text as the content of a file. Empty text means to read the file. -/
def setContent (store : SourceStore) (path : SourcePath) (text : String)
    (cache : SnapshotCache) : Traced (Option Snapshot × SnapshotCache) :=
  if text.isEmpty then cache.refresh store path
  else
    let (snapshot, next) := cache.keep path text
    pure (some snapshot, next)

/-- A file has changed: a tracked one is read again and any other is left alone. -/
def fileChanged (store : SourceStore) (path : SourcePath) (cache : SnapshotCache) :
    Traced (Bool × SnapshotCache) :=
  if cache.isTracked path then do
    let (_, next) ← cache.refresh store path
    pure (true, next)
  else pure (false, cache)

/-- Read several files again, one after the other. -/
def refreshAll (store : SourceStore) :
    List SourcePath → SnapshotCache → Traced SnapshotCache
  | [], cache => pure cache
  | path :: rest, cache => do
      let (_, next) ← cache.refresh store path
      refreshAll store rest next

/-- The tracked files at or below a directory. -/
def trackedUnder (cache : SnapshotCache) (directory : SourcePath) : List SourcePath :=
  cache.tracked.filter fun path => path.within directory

/-- Read every tracked file at or below a directory again, and count them. -/
def refreshUnder (store : SourceStore) (directory : SourcePath) (cache : SnapshotCache) :
    Traced (Nat × SnapshotCache) := do
  let affected := cache.trackedUnder directory
  let next ← refreshAll store affected cache
  pure (affected.length, next)

/-- The snapshot of a file, which is read if it is not tracked. -/
def snapshot (store : SourceStore) (path : SourcePath) (cache : SnapshotCache) :
    Traced (Option Snapshot × SnapshotCache) :=
  match cache.cached? path with
  | some snapshot => pure (some snapshot, cache)
  | none => cache.refresh store path

/-- The version of a file, which is read if it is not tracked. -/
def version (store : SourceStore) (path : SourcePath) (cache : SnapshotCache) :
    Traced (Option ContentHash × SnapshotCache) := do
  let (snapshot, next) ← cache.snapshot store path
  pure (snapshot.map Snapshot.version, next)

end SnapshotCache

end ScriptAnalysis
