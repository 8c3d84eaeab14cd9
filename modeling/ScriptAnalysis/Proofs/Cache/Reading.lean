import ScriptAnalysis.Proofs.Cache.Content
import ScriptAnalysis.Proofs.Traced

/-!
# Reading from any cache

A cache owes every path a snapshot (`snapshot?`): the cached one, however stale, or else the capture
of what the store holds. A request is answered with what is owed to its path. From then on all
spellings of the place are owed that same snapshot, while before each was owed a capture of what
the store holds under it. Where this is the same text, requests show each other no more than a
spelling (`Snapshot.Alike`). A read of a file with content makes it tracked, so no such file is
read twice (`fills_snapshot`).
-/

namespace ScriptAnalysis

/-- Whether the event is the reading of a content at the place. -/
def Event.isContentReadAt (store : SourceStore) (place : SourcePath) : Event → Bool
  | .read path => path.components == place.components && (store.held path).isSome
  | _ => false

/-- Snapshots of one place that differ at most in how its path is spelled. -/
structure Snapshot.Alike (left right : Snapshot) : Prop where
  place : left.path.components = right.path.components
  content : left.content = right.content

theorem Snapshot.alike_refl (snapshot : Snapshot) : snapshot.Alike snapshot := ⟨rfl, rfl⟩

theorem Snapshot.version_of_alike {left right : Option Snapshot}
    (alike : Option.Rel Snapshot.Alike left right) :
    left.map Snapshot.version = right.map Snapshot.version := by
  cases alike with
  | some same => exact congrArg (some ·.version) same.content
  | none => rfl

namespace SnapshotCache

variable {store : SourceStore} {cache : SnapshotCache} {path place : SourcePath} {event : Event}

/-- The snapshot that is owed to a path: the cached one, or a fresh one if the store holds a
text. -/
def snapshot? (store : SourceStore) (cache : SnapshotCache) (path : SourcePath) :
    Option Snapshot :=
  (cache.cached? path).or ((store.held path).map (Snapshot.capture path))

theorem snapshot?_of_cached {snapshot : Snapshot} (found : cache.cached? path = some snapshot) :
    cache.snapshot? store path = some snapshot := by
  rw [snapshot?, found, Option.some_or]

theorem snapshot_of_cached {snapshot : Snapshot} (found : cache.cached? path = some snapshot) :
    cache.snapshot store path = pure (some snapshot, cache) := by
  rw [SnapshotCache.snapshot, found]

/-- A file that is not tracked is read, and it is tracked from then on if it has a content. -/
theorem snapshot_of_untracked (untracked : cache.cached? path = none) :
    cache.snapshot store path =
      ⟨match store.held path with
        | some text =>
            let fresh := Snapshot.capture path text
            (some fresh, ⟨cache.entries.insert path fresh⟩)
        | none => (none, cache),
        (store.readText path).events⟩ := by
  have unknown : cache.isTracked path = false := by
    rw [isTracked_eq, content?_of_cached? untracked]
    rfl
  have read : store.readNonEmpty path = ⟨store.held path, (store.readText path).events⟩ :=
    Traced.ext (store.value_readNonEmpty path) (List.append_nil _)
  rw [SnapshotCache.snapshot, untracked]
  show cache.refresh store path = _
  rw [refresh, read]
  cases store.held path with
  | some text => apply Traced.ext <;> simp [keep, untracked]
  | none => apply Traced.ext <;> simp [evict, unknown]

/-- A request is answered with what is owed to its path. -/
theorem snapshot_eq (store : SourceStore) (path : SourcePath) (cache : SnapshotCache) :
    (cache.snapshot store path).value.1 = cache.snapshot? store path := by
  cases found : cache.cached? path with
  | some snapshot => rw [snapshot_of_cached found, snapshot?_of_cached found]; rfl
  | none =>
      rw [snapshot_of_untracked found, snapshot?, found, Option.none_or]
      cases store.held path <;> rfl

/-- What was owed to the requested path is cached from then on, for every spelling of the place. -/
theorem cached?_snapshot (store : SourceStore) (path : SourcePath) (cache : SnapshotCache)
    (place : SourcePath) :
    (cache.snapshot store path).value.2.cached? place =
      if path.components = place.components then cache.snapshot? store path
      else cache.cached? place := by
  have unchanged : ∀ looked, cache.cached? path = looked → cache.cached? place =
      if path.components = place.components then looked else cache.cached? place := by
    intro looked found
    split
    · next same => rw [← found]; exact (cache.cached?_congr same).symm
    · rfl
  cases found : cache.cached? path with
  | some snapshot =>
      rw [snapshot_of_cached found, snapshot?_of_cached found]
      exact unchanged _ found
  | none =>
      rw [snapshot_of_untracked found, snapshot?, found, Option.none_or]
      cases store.held path with
      | some text => exact PathMap.find?_insert _ _ _ _
      | none => exact unchanged _ found

/-- Two spellings of a place are owed alike if the store reads them alike. -/
theorem snapshot?_alike (cache : SnapshotCache) (same : path.components = place.components)
    (held : store.held path = store.held place) :
    Option.Rel Snapshot.Alike (cache.snapshot? store path) (cache.snapshot? store place) := by
  rw [snapshot?, snapshot?, cache.cached?_congr same, held]
  cases cache.cached? place with
  | some snapshot => exact .some snapshot.alike_refl
  | none =>
      cases store.held place with
      | some text => exact .some ⟨same, rfl⟩
      | none => exact .none

theorem isTracked_eq_isSome_cached? (cache : SnapshotCache) (path : SourcePath) :
    cache.isTracked path = (cache.cached? path).isSome :=
  PathMap.contains_eq_isSome _ _

/-- The file is not tracked and the store has a content under this path, so a request for it takes
the content in. -/
structure Finds (store : SourceStore) (cache : SnapshotCache) (path : SourcePath) : Prop where
  untracked : cache.isTracked path = false
  held : (store.held path).isSome = true

/-- After a request a path is owed what it was owed, or what the requested spelling of its place
was owed for the content that was found there. -/
theorem snapshot?_snapshot (store : SourceStore) (path : SourcePath) (cache : SnapshotCache)
    (place : SourcePath) :
    let owed := (cache.snapshot store path).value.2.snapshot? store place
    owed = cache.snapshot? store place ∨
      path.components = place.components ∧ cache.Finds store path ∧
        owed = cache.snapshot? store path := by
  intro owed
  cases found : cache.cached? path with
  | some snapshot =>
      exact .inl (congrArg (fun request => request.value.2.snapshot? store place)
        (snapshot_of_cached found))
  | none =>
      cases held : store.held path with
      | none =>
          refine .inl (congrArg (fun after => snapshot? store after place) ?_)
          rw [snapshot_of_untracked found, held]
      | some text =>
          have fresh : cache.snapshot? store path = some (Snapshot.capture path text) := by
            rw [snapshot?, found, held]
            rfl
          have owing : owed = ((cache.snapshot store path).value.2.cached? place).or
              ((store.held place).map (Snapshot.capture place)) := rfl
          rw [cached?_snapshot] at owing
          split at owing
          · next same =>
              have finds : cache.Finds store path :=
                ⟨by rw [isTracked_eq_isSome_cached?, found]; rfl, by rw [held]; rfl⟩
              exact .inr ⟨same, finds, by rw [owing, fresh]; rfl⟩
          · exact .inl owing

/-- A request may read its file and nothing else happens. -/
theorem mem_events_snapshot (member : event ∈ (cache.snapshot store path).events) :
    event = .read path ∨ ∃ reason, event = .unreadable path reason := by
  cases found : cache.cached? path with
  | some snapshot =>
      rw [snapshot_of_cached found] at member
      cases member
  | none =>
      rw [snapshot_of_untracked found, SourceStore.readText] at member
      cases outcome : store.read path with
      | found text => exact .inl (by simpa [outcome] using member)
      | absent => exact .inl (by simpa [outcome] using member)
      | unreadable reason =>
          have either : event = .read path ∨ event = .unreadable path reason := by
            simpa [outcome] using member
          exact either.imp_right (⟨reason, ·⟩)

/-- Every read of a content makes its file tracked. -/
theorem fills_snapshot (store : SourceStore) (place path : SourcePath) (cache : SnapshotCache) :
    Event.Fills (Event.isContentReadAt store place) (cache.snapshot store path).events
      (cache.isTracked place) ((cache.snapshot store path).value.2.isTracked place) := by
  cases found : cache.cached? path with
  | some snapshot =>
      rw [snapshot_of_cached found]
      exact Event.fills_nil _ _
  | none =>
      have counted : (cache.snapshot store path).events.countP (Event.isContentReadAt store place) =
          (path.components == place.components && (store.held path).isSome).toNat := by
        rw [snapshot_of_untracked found, SourceStore.readText]
        cases same : path.components == place.components && (store.held path).isSome <;>
          cases store.read path <;> simp [Event.isContentReadAt, same]
      rw [isTracked_eq_isSome_cached?, isTracked_eq_isSome_cached?, cached?_snapshot, Event.Fills,
        counted]
      by_cases same : path.components = place.components
      · have untracked : cache.cached? place = none := (cache.cached?_congr same).symm.trans found
        rw [if_pos same, untracked, snapshot?, found, Option.none_or, Option.isSome_map, same]
        simp
      · rw [if_neg same, beq_false_of_ne same]
        exact Nat.le_of_eq (Nat.zero_add _)

end SnapshotCache

end ScriptAnalysis
