import ScriptAnalysis.Proofs.Service.Configuration
import ScriptAnalysis.Proofs.Service.Delimiter

/-!
# Registries that mirror their store

While its store stands still a registry knows nothing that the store does not hold: every snapshot
is the capture of what is held at its path, and every project has the configuration that is held
for its root (`Registry.Mirrors`). Requests without a text keep this and are answered from the
store alone (`Registry.Mirrors.diagnostics`), so an answer shows nothing of those before it.
-/

namespace ScriptAnalysis

namespace SnapshotCache

variable {store : SourceStore} {cache : SnapshotCache} {path : SourcePath}

/-- The snapshot is the capture of what the store holds under its own plain path. -/
structure IsHeld (store : SourceStore) (key : SourcePath) (snapshot : Snapshot) : Prop where
  plain : key.IsPlain
  held : store.held key = some snapshot.text
  captured : snapshot = Snapshot.capture key snapshot.text

theorem feeds_isHeld (store : SourceStore) : Feeds (IsHeld store) store := by
  intro path text known held
  have plain : path.IsPlain := known.elim id fun ⟨_, old⟩ => old.plain
  exact admits_of_plain (fun _ _ => IsHeld.plain) plain ⟨plain, held, rfl⟩

/-- What is found under a plain path is the capture of what the store holds there. -/
theorem Every.held_of_cached (every : cache.Every (IsHeld store)) (plain : path.IsPlain)
    {snapshot : Snapshot} (cached : cache.cached? path = some snapshot) :
    (store.held path).map (Snapshot.capture path) = some snapshot := by
  have isHeld := every.of_cached_plain (fun _ _ => IsHeld.plain) plain cached
  rw [isHeld.held, Option.map_some, ← isHeld.captured]

/-- A file that is read again has the capture of what the store holds, whatever its version. -/
theorem Every.cached?_reread (every : cache.Every (IsHeld store)) (plain : path.IsPlain) :
    (cache.setContent store path "").value.2.cached? path =
      (store.held path).map (Snapshot.capture path) := by
  refine cached?_setContent_of_distinct fun text effective old found _ => ?_
  have held : store.held path = some text := effective
  have same := every.held_of_cached plain found
  rw [held, Option.map_some, Option.some_inj] at same
  exact same.symm

/-- Whether or not a file is tracked, it is looked up as the store holds it. -/
theorem Every.snapshot_held (every : cache.Every (IsHeld store)) (plain : path.IsPlain) :
    (cache.snapshot store path).value.1 = (store.held path).map (Snapshot.capture path) := by
  rw [SnapshotCache.snapshot]
  cases found : cache.cached? path with
  | some existing => exact (every.held_of_cached plain found).symm
  | none =>
      simp only
      rw [← cached?_refresh_self]
      cases held : store.held path with
      | none => exact cached?_refresh_of_absent cache held
      | some text =>
          rw [SnapshotCache.refresh, Traced.value_bind, SourceStore.value_readNonEmpty,
            ← SourceStore.held, held]
          exact cached?_keep_of_distinct fun old there => by rw [found] at there; cases there

end SnapshotCache

/-- The report on a file as the store holds it, with the configuration that it holds for a root. -/
def SourceStore.reportOn (store : SourceStore) (root file : SourcePath) : Report :=
  let (_, linter, errors) := Project.configurationAt store root
  statelessReport errors linter file (store.held file)

/-- A project that mirrors the store answers from the store alone. -/
theorem Project.diagnostics_of_held {store : SourceStore} {root file : SourcePath}
    {project : Project Unit} (every : project.Every (SnapshotCache.IsHeld store))
    (configured : project.configuration = configurationAt store root) (plain : file.IsPlain) :
    (project.diagnostics store DelimiterEngine.engine file "").value.1 =
      .ok (store.reportOn root file) := by
  have content : (project.withContent store file "").cached? file =
      (store.held file).map (Snapshot.capture file) :=
    SnapshotCache.Every.cached?_reread every plain
  rw [diagnostics_report content, SourceStore.reportOn, ← configured]
  rfl

namespace Registry

variable {store : SourceStore} {registry : Registry Unit} {root file : SourcePath}

/-- All that the registry knows is in the store. -/
structure Mirrors (store : SourceStore) (registry : Registry Unit) : Prop where
  wellFormed : registry.WellFormed
  held : registry.Every (SnapshotCache.IsHeld store)
  configured : ∀ entry ∈ registry.projects.entries,
    entry.2.configuration = Project.configurationAt store entry.1

namespace Mirrors

theorem empty (store : SourceStore) (options : HostOptions) :
    (Registry.empty options).Mirrors store where
  wellFormed := wellFormed_empty options
  held entry member := by cases member
  configured entry member := by cases member

theorem every_obtained (mirrors : registry.Mirrors store) (root : SourcePath) :
    (registry.obtained store DelimiterEngine.engine root).Every (SnapshotCache.IsHeld store) :=
  mirrors.held.obtained mirrors.wellFormed (SnapshotCache.feeds_isHeld store) root

theorem configuration_obtained (mirrors : registry.Mirrors store) (root : SourcePath) :
    (registry.obtained store DelimiterEngine.engine root).configuration =
      Project.configurationAt store root.normalize := by
  rw [obtained]
  split
  · next project found =>
      exact mirrors.configured _ ((mirrors.wellFormed.find?_iff root.isPlain_normalize).mp found)
  · exact Project.configuration_create store registry.options _ root.normalize

/-- A project that mirrors the store may be put in. -/
theorem insert (mirrors : registry.Mirrors store) (plain : root.IsPlain) {project : Project Unit}
    (every : project.Every (SnapshotCache.IsHeld store))
    (configured : project.configuration = Project.configurationAt store root) :
    (registry.insert root project).Mirrors store where
  wellFormed := mirrors.wellFormed.insert plain project
  held entry member := by
    rw [mirrors.wellFormed.mem_insert_iff plain] at member
    split at member
    · rwa [member]
    · exact mirrors.held entry member
  configured entry member := by
    rw [mirrors.wellFormed.mem_insert_iff plain] at member
    split at member
    · next same => rw [member, configured, same]
    · exact mirrors.configured entry member

/-- A request without a text is answered from the store alone, and all that the registry knows
then is still in the store. -/
theorem diagnostics (mirrors : registry.Mirrors store) (root file : SourcePath) :
    ∃ next, (registry.diagnostics (Backend.overStore store DelimiterEngine.engine) root file
        "").value = (.ok (store.reportOn root.normalize file.normalize), next) ∧
      next.Mirrors store ∧ (next.find? root).isSome := by
  have every := mirrors.every_obtained root
  have configured := mirrors.configuration_obtained root
  have feeds := SnapshotCache.feeds_isHeld store
  have plain := file.isPlain_normalize
  rw [diagnostics_value, onProject_value, Project.diagnostics_of_held every configured plain,
    getOrCreate_value]
  refine ⟨_, rfl, ?_, ?_⟩
  · refine Mirrors.insert ?_ root.isPlain_normalize ?_ ?_
    · simp only
      split
      · exact mirrors
      · exact mirrors.insert root.isPlain_normalize every configured
    · exact every.diagnostics feeds DelimiterEngine.namesPlainly plain fun some => absurd rfl some
    · rw [Project.configuration_diagnostics, configured]
  · rw [Registry.find?, Registry.insert, PathMap.find?_insert, if_pos rfl]
    rfl

/-- A file is looked up as the store holds it, and all that the registry knows then is still in the
store. -/
theorem snapshot (mirrors : registry.Mirrors store) (plain : file.IsPlain)
    {project : Project Unit} (found : registry.find? root = some project) :
    let read := (project.onHost (Host.snapshot store file)).value
    read.1 = (store.held file).map (Snapshot.capture file) ∧
      (registry.insert root.normalize read.2).Mirrors store := by
  intro read
  have entry := (mirrors.wellFormed.find?_iff root.isPlain_normalize).mp found
  have every : project.Every (SnapshotCache.IsHeld store) := mirrors.held _ entry
  refine ⟨SnapshotCache.Every.snapshot_held every plain, ?_⟩
  refine mirrors.insert root.isPlain_normalize ?_ ?_
  · exact SnapshotCache.Every.snapshot every (SnapshotCache.feeds_isHeld store) plain
  · exact mirrors.configured _ entry

end Mirrors

end Registry

end ScriptAnalysis
