import ScriptAnalysis.PathMap
import ScriptAnalysis.Store
import ScriptAnalysis.Text.Distinct

/-!
# The directory cache

The names of the subdirectories of each known directory. A directory that is found to
exist is listed at once, and so is every directory below it; later questions
about that subtree do not reach the store until a change drops the listings.
-/

namespace ScriptAnalysis

/-- The subdirectory names of the known directories. -/
structure DirectoryCache where
  listings : PathMap (List String)

namespace DirectoryCache

/-- The cache without listings. -/
def empty : DirectoryCache := ⟨PathMap.empty⟩

/-- The listing of a directory, if it is known; the store is not asked. -/
def cached? (cache : DirectoryCache) (path : SourcePath) : Option (List String) :=
  cache.listings.find? path

/-- Enter the subdirectories of a directory, given which of its entries are directories
and the cache after those were explored. -/
def record (path : SourcePath) (children : List String) (cache : DirectoryCache) :
    Traced (List String × DirectoryCache) := do
  let sorted := children.mergeSort fun left right => left ≤ right
  Traced.note (.cachedListing path sorted.length)
  pure (sorted, ⟨cache.listings.insert path sorted⟩)

/-- Whether the path is a directory. One that is not known yet is listed with everything
below it, at most `depth` levels deep. -/
def explore (store : SourceStore) :
    Nat → SourcePath → DirectoryCache → Traced (Bool × DirectoryCache)
  | 0, path, cache => pure (cache.listings.contains path, cache)
  | depth + 1, path, cache =>
      if cache.listings.contains path then pure (true, cache)
      else if store.isDirectory path then do
        let names ← store.list path
        let (flags, explored) ←
          Traced.mapState (fun name => explore store depth (path.combine ⟨name⟩)) names cache
        let children := (names.zip flags).filterMap fun (name, isDirectory) =>
          if isDirectory then some name else none
        let (_, next) ← record path children explored
        pure (true, next)
      else pure (false, cache)

/-- Whether the path is a directory. Below a directory every step adds a component, so
the nesting of the store bounds the exploration. -/
def directoryExists (store : SourceStore) (path : SourcePath) (cache : DirectoryCache) :
    Traced (Bool × DirectoryCache) :=
  explore store (store.nesting + 2) path cache

/-- The subdirectory names of a directory in ascending order. What is no directory has
none and is not remembered. -/
def list (store : SourceStore) (path : SourcePath) (cache : DirectoryCache) :
    Traced (List String × DirectoryCache) := do
  let (_, next) ← cache.directoryExists store path
  pure ((next.cached? path).getD [], next)

/-- Drop every listing at or below a directory, and count them. -/
def invalidateUnder (directory : SourcePath) (cache : DirectoryCache) : Nat × DirectoryCache :=
  let kept := cache.listings.filterKeys fun path => !path.within directory
  (cache.listings.size - kept.size, ⟨kept⟩)

end DirectoryCache

end ScriptAnalysis
