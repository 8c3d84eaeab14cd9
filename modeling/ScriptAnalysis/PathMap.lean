import ScriptAnalysis.SourcePath

/-!
# Maps keyed by paths

A `PathMap` holds at most one entry for each place, in ascending order. A key is found
under every spelling of its place. When a value is replaced the key keeps the spelling
under which it was first inserted.
-/

namespace ScriptAnalysis

/-- Entries in ascending order of their paths, at most one for each place. -/
structure PathMap (α : Type) where
  entries : List (SourcePath × α)

namespace PathMap

variable {α β : Type}

/-- The map without entries. -/
def empty : PathMap α := ⟨[]⟩

/-- The value at the place that the path denotes. -/
def find? (map : PathMap α) (path : SourcePath) : Option α :=
  (map.entries.find? fun entry => entry.1.components == path.components).map (·.2)

/-- Whether there is an entry for the place. -/
def contains (map : PathMap α) (path : SourcePath) : Bool :=
  map.entries.any fun entry => entry.1.components == path.components

/-- Put an entry into an ascending list at its place, or replace the value there. -/
def insertEntry (path : SourcePath) (value : α) :
    List (SourcePath × α) → List (SourcePath × α)
  | [] => [(path, value)]
  | (key, old) :: rest =>
      match path.order key with
      | .lt => (path, value) :: (key, old) :: rest
      | .eq => (key, value) :: rest
      | .gt => (key, old) :: insertEntry path value rest

/-- Set the value at a place. -/
def insert (map : PathMap α) (path : SourcePath) (value : α) : PathMap α :=
  ⟨insertEntry path value map.entries⟩

/-- Remove the entry of a place. -/
def erase (map : PathMap α) (path : SourcePath) : PathMap α :=
  ⟨map.entries.filter fun entry => entry.1.components != path.components⟩

/-- Keep the entries whose path passes the test. -/
def filterKeys (keep : SourcePath → Bool) (map : PathMap α) : PathMap α :=
  ⟨map.entries.filter fun entry => keep entry.1⟩

/-- The paths of the map, ascending. -/
def keys (map : PathMap α) : List SourcePath :=
  map.entries.map (·.1)

/-- The number of entries. -/
def size (map : PathMap α) : Nat :=
  map.entries.length

/-- Whether the map has no entry. -/
def isEmpty (map : PathMap α) : Bool :=
  map.entries.isEmpty

end PathMap

end ScriptAnalysis
