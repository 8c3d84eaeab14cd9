import ScriptAnalysis.Proofs.Cache.Reading
import ScriptAnalysis.Proofs.Service.Reachable

/-!
# Reconfiguration in place

A project that takes on a new configuration is configured as one that is built from it, and its
cache stays warm: what was tracked is not read again, and of the configured files only those are
read that were not tracked (`reconfigure_agrees_with_create`). Both read the configured files one
after the other and keep the first capture of each place (`SourceStore.firstCapture`), the one
over what is cached and the other over nothing.
-/

namespace ScriptAnalysis

/-- The capture of the first of some files that is at a place and has content there. -/
def SourceStore.firstCapture (store : SourceStore) (files : List SourcePath) (place : SourcePath) :
    Option Snapshot :=
  files.findSome? fun file =>
    if file.components = place.components then (store.held file).map (Snapshot.capture file)
    else none

namespace SourceStore

variable {store : SourceStore} {files : List SourcePath} {place : SourcePath}

theorem exists_of_firstCapture {snapshot : Snapshot}
    (found : store.firstCapture files place = some snapshot) :
    ∃ file ∈ files, file.Same place ∧ store.held file = some snapshot.text ∧
      snapshot = Snapshot.capture file snapshot.text := by
  obtain ⟨file, member, captured⟩ := List.exists_of_findSome?_eq_some found
  obtain ⟨here, captured⟩ := Option.ite_none_right_eq_some.mp captured
  obtain ⟨text, holds, rfl⟩ := Option.map_eq_some_iff.mp captured
  exact ⟨file, member, here, holds, rfl⟩

theorem isSome_firstCapture (store : SourceStore) (files : List SourcePath) (place : SourcePath) :
    (store.firstCapture files place).isSome = true ↔
      ∃ file ∈ files, file.Same place ∧ (store.held file).isSome = true := by
  rw [firstCapture, List.isSome_findSome?, List.any_eq_true]
  refine exists_congr fun file => and_congr_right fun _ => ?_
  by_cases here : file.components = place.components <;> simp [SourcePath.Same, here]

end SourceStore

namespace SnapshotCache

/-- Asking for several files captures the first with content of each place that is not
tracked. -/
theorem cached?_loadAll (store : SourceStore) (files : List SourcePath) (cache : SnapshotCache)
    (place : SourcePath) :
    (cache.loadAll store files).cached? place =
      (cache.cached? place).or (store.firstCapture files place) := by
  induction files generalizing cache with
  | nil => exact Option.or_none.symm
  | cons file rest inductionHypothesis =>
      rw [loadAll, List.foldl_cons, ← loadAll, inductionHypothesis, cached?_snapshot,
        SourceStore.firstCapture, SourceStore.firstCapture, List.findSome?_cons]
      by_cases here : file.components = place.components
      · have cached : cache.cached? file = cache.cached? place := cache.cached?_congr here
        rw [if_pos here, if_pos here, snapshot?, cached, Option.or_assoc]
        cases (store.held file).map (Snapshot.capture file) <;> rfl
      · rw [if_neg here, if_neg here]

end SnapshotCache

namespace Project

variable {σ : Type} {store : SourceStore} {resolved : ResolvedProject}

theorem snapshot?_reconfigure (store : SourceStore) (resolved : ResolvedProject)
    (project : Project σ) (path : SourcePath) :
    (project.reconfigure store resolved).value.snapshot? path =
      (project.snapshot? path).or (store.firstCapture resolved.rootFiles path) := by
  rw [reconfigure_value]
  exact SnapshotCache.cached?_loadAll store resolved.rootFiles _ path

theorem snapshot?_create (store : SourceStore) (options : HostOptions) (engineState : σ)
    (resolved : ResolvedProject) (path : SourcePath) :
    (create store options engineState resolved).value.snapshot? path =
      store.firstCapture resolved.rootFiles path := by
  rw [create_value]
  exact SnapshotCache.cached?_loadAll store resolved.rootFiles _ path

/-- What a new configuration makes of a project, beside the `fresh` one that is built from it. -/
structure Reconfigured (store : SourceStore) (resolved : ResolvedProject)
    (before fresh after : Project σ) : Prop where
  settings : after.host.settings = fresh.host.settings
  linter : after.linter = fresh.linter
  configurationErrors : after.configurationErrors = fresh.configurationErrors
  /-- Nothing is evicted or read again. -/
  kept : ∀ path snapshot, before.snapshot? path = some snapshot →
    after.snapshot? path = some snapshot
  /-- Where nothing was cached, a new project has the same. -/
  loaded : ∀ path, before.snapshot? path = none → after.snapshot? path = fresh.snapshot? path
  /-- The configured files with content are tracked from now on, and no others. -/
  tracked : ∀ path, before.snapshot? path = none →
    ((after.snapshot? path).isSome = true ↔
      ∃ file ∈ resolved.rootFiles, file.Same path ∧ (store.held file).isSome = true)
  /-- What is tracked from now on is the capture of a configured file. -/
  captured : ∀ path snapshot, before.snapshot? path = none →
    after.snapshot? path = some snapshot →
      ∃ file ∈ resolved.rootFiles, file.Same path ∧ store.held file = some snapshot.text ∧
        snapshot = Snapshot.capture file snapshot.text
  /-- A configured file has its own text, unless its place is configured under another spelling
  for which the store holds another text. -/
  text : ∀ file ∈ resolved.rootFiles, before.snapshot? file = none →
    ∀ text, store.held file = some text →
      (∀ other ∈ resolved.rootFiles, other.Same file → ∀ otherText,
        store.held other = some otherText → otherText = text) →
      (after.snapshot? file).map Snapshot.text = some text
  directories : after.host.cache.directories = before.host.cache.directories
  /-- No configuration changes what the project was built with. -/
  identity : after.identity = before.identity

/-- Taking on a configuration agrees with building a project from it, and leaves the cache warm,
whatever is cached and however often a file is configured. -/
theorem reconfigure_agrees_with_create (store : SourceStore) (options : HostOptions)
    (engineState : σ) (resolved : ResolvedProject) (project : Project σ) :
    Reconfigured store resolved project (create store options engineState resolved).value
      (project.reconfigure store resolved).value := by
  have opened : ∀ path, project.snapshot? path = none →
      (project.reconfigure store resolved).value.snapshot? path =
        store.firstCapture resolved.rootFiles path := by
    intro path untracked
    rw [snapshot?_reconfigure, untracked, Option.none_or]
  refine
    { settings := ?_
      linter := ?_
      configurationErrors := ?_
      kept := ?_
      loaded := ?_
      tracked := ?_
      captured := ?_
      text := ?_
      directories := ?_
      identity := ?_ }
  · rw [reconfigure_value, create_value]
  · rw [reconfigure_value, create_value]
  · rw [reconfigure_value, create_value]
  · intro path snapshot cached
    rw [snapshot?_reconfigure, cached, Option.some_or]
  · intro path untracked
    rw [opened path untracked, snapshot?_create]
  · intro path untracked
    rw [opened path untracked, SourceStore.isSome_firstCapture]
  · intro path snapshot untracked found
    rw [opened path untracked] at found
    exact SourceStore.exists_of_firstCapture found
  · intro file member untracked text holds alike
    rw [opened file untracked]
    have present : (store.firstCapture resolved.rootFiles file).isSome = true :=
      (SourceStore.isSome_firstCapture store _ file).mpr
        ⟨file, member, rfl, by rw [holds, Option.isSome_some]⟩
    obtain ⟨snapshot, found⟩ := Option.isSome_iff_exists.mp present
    obtain ⟨other, listed, here, content, -⟩ := SourceStore.exists_of_firstCapture found
    rw [found, Option.map_some, alike other listed here _ content]
  · rw [reconfigure_value]
  · rw [reconfigure_value]
    rfl

/-- A pushed text stays though the store holds another one. Of the two other configured files,
one of them configured twice, the one with content is tracked. -/
theorem reconfigure_agrees_with_create_stale :
    let tree := ((Tree.empty.writeFile ⟨"/p/a.ts"⟩ "a").writeFile ⟨"/p/b.ts"⟩ "b").writeFile
      ⟨"/p/c.ts"⟩ ""
    let pushed := (SnapshotCache.empty.keep ⟨"/p/a.ts"⟩ "pushed").2
    let project : Project Unit :=
      ⟨⟨⟨"/p"⟩, .empty, .standard, ⟨pushed, DirectoryCache.empty⟩⟩, (), none, []⟩
    let files : List SourcePath := [⟨"/p/a.ts"⟩, ⟨"/p/b.ts"⟩, ⟨"/p//b.ts"⟩, ⟨"/p/c.ts"⟩]
    let resolved : ResolvedProject := ⟨⟨"/p"⟩, .empty, files, some .standard, []⟩
    let after := (project.reconfigure tree.store resolved).value
    after.snapshot? ⟨"/p/a.ts"⟩ = some (Snapshot.capture ⟨"/p/a.ts"⟩ "pushed") ∧
      (after.snapshot? ⟨"/p/b.ts"⟩).map Snapshot.text = some "b" ∧
      ¬ (after.snapshot? ⟨"/p/c.ts"⟩).isSome = true := by
  intro tree pushed project files resolved after
  have agrees := reconfigure_agrees_with_create tree.store .standard () resolved project
  refine ⟨agrees.kept ⟨"/p/a.ts"⟩ _ rfl, ?_, ?_⟩
  · refine agrees.text ⟨"/p/b.ts"⟩ (by simp [resolved, files]) rfl "b" (by decide +kernel) ?_
    intro other listed here otherText holds
    rw [Tree.held_congr tree here] at holds
    have single : tree.store.held ⟨"/p/b.ts"⟩ = some "b" := by decide +kernel
    exact Option.some_inj.mp (holds.symm.trans single)
  · rw [agrees.tracked ⟨"/p/c.ts"⟩ rfl]
    decide +kernel

end Project

end ScriptAnalysis
