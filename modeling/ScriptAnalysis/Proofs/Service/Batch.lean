import ScriptAnalysis.Proofs.Cache.Entries
import ScriptAnalysis.Proofs.Config.Resolve
import ScriptAnalysis.Proofs.Service.Change

/-!
# What a batch of changes leaves

After a batch the content of a place depends on what it was before, on what the store holds
there, and on two bits: whether some change loads it as a configured file, and whether some
change rereads it (`content?_absorbAll`). The rest of a project depends on whether some
change concerns its root. So batches with the same changes leave projects that agree.
-/

namespace ScriptAnalysis

variable {σ : Type} {store : SourceStore} {root place : SourcePath}

/-- Configured files have plain paths. -/
theorem isPlain_rootFiles {file : SourcePath}
    (member : file ∈ (resolveProject store root).value.rootFiles) : file.IsPlain := by
  rw [resolveProject_value] at member
  cases usable : store.config root with
  | error error =>
      rw [usable] at member
      cases member
  | ok config =>
      rw [usable] at member
      obtain ⟨written, _, rfl⟩ := List.mem_map.mp (List.mem_of_mem_filter member)
      exact SourcePath.isPlain_combine root _

namespace Host

/-- Preloading asks for the snapshot of every file. -/
theorem preload_value (store : SourceStore) (files : List SourcePath) (host : Host) :
    (host.preload store files).value.2 =
      { host with
        cache := { host.cache with
          snapshots := host.cache.snapshots.loadAll store files } } := by
  induction files generalizing host with
  | nil => rfl
  | cons file rest inductionHypothesis =>
      rw [preload, Traced.value_bind, Traced.value_bind, Traced.value_pure, inductionHypothesis]
      rfl

end Host

namespace Project

variable {change : FileChange} {changes : List FileChange} {project : Project σ}

/-- The snapshot of a file in the cache of the project. -/
def snapshot? (project : Project σ) (path : SourcePath) : Option Snapshot :=
  project.host.cache.snapshots.cached? path

/-- The content of a file in the cache of the project. -/
def content? (project : Project σ) (path : SourcePath) : Option Content :=
  project.host.cache.snapshots.content? path

/-- The listing of a directory in the cache of the project. -/
def listing? (project : Project σ) (path : SourcePath) : Option (List String) :=
  project.host.cache.directories.cached? path

/-- A new configuration keeps what is cached and loads the configured files. -/
theorem reconfigure_value (store : SourceStore) (resolved : ResolvedProject)
    (project : Project σ) :
    (project.reconfigure store resolved).value =
      { project with
        host := { project.host with
          settings := resolved.settings
          cache := { project.host.cache with
            snapshots := project.host.cache.snapshots.loadAll store resolved.rootFiles } }
        linter := resolved.lint.map Linter.ofConfig
        configurationErrors := resolved.errors } := by
  simp only [reconfigure, Traced.value_bind, Traced.value_pure, Host.preload_value]
  rfl

/-- Renewal takes on the configuration that the store holds. -/
theorem renewed_eq (store : SourceStore) (root : SourcePath) (project : Project σ) :
    project.renewed store root =
      let resolved := (resolveProject store root).value
      { project with
        host := { project.host with
          settings := resolved.settings
          cache := { project.host.cache with
            snapshots := project.host.cache.snapshots.loadAll store resolved.rootFiles } }
        linter := resolved.lint.map Linter.ofConfig
        configurationErrors := resolved.errors } := by
  rw [renewed, reconfigure_value]

/-- Whether a place is that of a file which the configuration of a root lists. -/
def isConfigured (store : SourceStore) (root place : SourcePath) : Bool :=
  (resolveProject store root).value.rootFiles.any fun file => file.components == place.components

theorem content?_renewed (store : SourceStore) (root place : SourcePath) (project : Project σ) :
    (project.renewed store root).content? place =
      Content.settled (isConfigured store root place) false (store.held place.plain)
        (project.content? place) := by
  rw [renewed_eq]
  exact SnapshotCache.content?_loadAll store (fun _ => isPlain_rootFiles) _ place

/-- The store reads every file that the project tracks as it reads the plain spelling. -/
def ReadsTracked (store : SourceStore) (project : Project σ) : Prop :=
  SnapshotCache.ReadsTracked store project.host.cache.snapshots

variable {fits : SourcePath → Snapshot → Prop}

/-- Every entry among the snapshots of the project has a property. -/
def Every (fits : SourcePath → Snapshot → Prop) (project : Project σ) : Prop :=
  project.host.cache.snapshots.Every fits

theorem Every.renewed (every : project.Every fits) (feeds : SnapshotCache.Feeds fits store)
    (root : SourcePath) : (project.renewed store root).Every fits := by
  rw [renewed_eq]
  exact SnapshotCache.Every.loadAll every feeds fun _ => isPlain_rootFiles

theorem Every.noticed (every : project.Every fits) (feeds : SnapshotCache.Feeds fits store)
    (change : FileChange) :
    (project.host.noticed store change).value.2.cache.snapshots.Every fits := by
  unfold Host.noticed
  cases change.kind with
  | file => exact SnapshotCache.Every.fileChanged every feeds (SourcePath.isPlain_normalize _)
  | directory => exact SnapshotCache.Every.refreshUnder every feeds _

theorem Every.absorb (every : project.Every fits) (feeds : SnapshotCache.Feeds fits store)
    (change : FileChange) (root : SourcePath) : (project.absorb store change root).Every fits := by
  rw [Project.absorb]
  by_cases concerned : change.concerns root = true
  · rw [if_pos concerned]
    exact (every.renewed feeds root).noticed feeds change
  · rw [if_neg concerned]
    exact every.noticed feeds change

theorem Every.absorbAll (every : project.Every fits) (feeds : SnapshotCache.Feeds fits store)
    (changes : List FileChange) (root : SourcePath) :
    (project.absorbAll store changes root).Every fits := by
  induction changes generalizing project with
  | nil => exact every
  | cons change rest inductionHypothesis =>
      exact inductionHypothesis (every.absorb feeds change root)

theorem ReadsTracked.renewed (reads : project.ReadsTracked store) (root : SourcePath) :
    (project.renewed store root).ReadsTracked store :=
  SnapshotCache.readsTracked_iff_every.mpr
    (Every.renewed (SnapshotCache.readsTracked_iff_every.mp reads)
      (SnapshotCache.feeds_readsTracked store) root)

theorem ReadsTracked.absorb (reads : project.ReadsTracked store) (change : FileChange)
    (root : SourcePath) : (project.absorb store change root).ReadsTracked store :=
  SnapshotCache.readsTracked_iff_every.mpr
    (Every.absorb (SnapshotCache.readsTracked_iff_every.mp reads)
      (SnapshotCache.feeds_readsTracked store) change root)

/-- Noticing a change rereads what it touches. -/
theorem content?_noticed (reads : project.ReadsTracked store) (change : FileChange)
    (place : SourcePath) :
    (project.host.noticed store change).value.2.cache.snapshots.content? place =
      Content.settled false (change.touches place.components) (store.held place.plain)
        (project.content? place) := by
  unfold Host.noticed FileChange.touches
  cases change.kind with
  | file =>
      simp only [Content.settled, decide_eq_true_eq]
      refine (SnapshotCache.content?_fileChanged _ _ _ _).trans ?_
      by_cases same : change.path.normalize.components = place.components
      · have plain : change.path.normalize = place.plain := by
          rw [← SourcePath.plain_congr same, SourcePath.isPlain_normalize]
        simp only [if_pos same, ← plain]
        rfl
      · rw [if_neg same, if_neg same]
        rfl
  | directory => exact SnapshotCache.content?_refreshUnder reads _ place

theorem content?_absorb (reads : project.ReadsTracked store) (change : FileChange)
    (root place : SourcePath) :
    (project.absorb store change root).content? place =
      Content.settled (change.concerns root && isConfigured store root place)
        (change.touches place.components) (store.held place.plain) (project.content? place) := by
  rw [absorb]
  cases change.concerns root with
  | true =>
      refine (content?_noticed (reads.renewed root) change place).trans ?_
      rw [content?_renewed, Content.settled_settled]
      simp
  | false => exact (content?_noticed reads change place).trans (by simp)

/-- The content of a place after a batch. -/
theorem content?_absorbAll (reads : project.ReadsTracked store) (changes : List FileChange)
    (root place : SourcePath) :
    (project.absorbAll store changes root).content? place =
      Content.settled ((changes.any fun change => change.concerns root) &&
          isConfigured store root place)
        (changes.any fun change => change.touches place.components) (store.held place.plain)
        (project.content? place) := by
  induction changes generalizing project with
  | nil => rfl
  | cons change rest inductionHypothesis =>
      rw [absorbAll_cons, inductionHypothesis (reads.absorb change root), content?_absorb reads,
        Content.settled_settled, List.any_cons, List.any_cons, Bool.and_or_distrib_right]

/-- The listing of a place after a change. -/
theorem listing?_absorb (store : SourceStore) (change : FileChange) (root place : SourcePath)
    (project : Project σ) :
    (project.absorb store change root).listing? place =
      if change.drops place then none else project.listing? place := by
  have noticed : ∀ host : Host,
      (host.noticed store change).value.2.cache.directories.cached? place =
        if change.drops place then none else host.cache.directories.cached? place := by
    intro host
    unfold Host.noticed FileChange.drops
    cases change.kind with
    | file => rfl
    | directory => exact DirectoryCache.cached?_invalidateUnder _ _ place
  refine (noticed _).trans ?_
  split
  · rfl
  · split
    · rw [renewed_eq]
      rfl
    · rfl

/-- The listing of a place after a batch. -/
theorem listing?_absorbAll (store : SourceStore) (changes : List FileChange)
    (root place : SourcePath) (project : Project σ) :
    (project.absorbAll store changes root).listing? place =
      if changes.any fun change => change.drops place then none else project.listing? place :=
  absorbAll_sets (fun project => project.listing? place)
    (fun change => listing?_absorb store change root place) changes project

/-- What a configuration sets in a project. -/
def configuration (project : Project σ) : CompilationSettings × Option Linter × List Diagnostic :=
  (project.host.settings, project.linter, project.configurationErrors)

/-- What the configuration that the store holds for a root sets. -/
def configurationAt (store : SourceStore) (root : SourcePath) :
    CompilationSettings × Option Linter × List Diagnostic :=
  let resolved := (resolveProject store root).value
  (resolved.settings, resolved.lint.map Linter.ofConfig, resolved.errors)

theorem configuration_absorb (store : SourceStore) (change : FileChange) (root : SourcePath)
    (project : Project σ) :
    (project.absorb store change root).configuration =
      if change.concerns root then configurationAt store root else project.configuration := by
  have noticed : ∀ host : Host, (host.noticed store change).value.2.settings = host.settings := by
    intro host
    unfold Host.noticed
    cases change.kind <;> rfl
  rw [absorb, configuration, noticed]
  split
  · rw [renewed_eq]
    rfl
  · rfl

/-- The configuration after a batch. -/
theorem configuration_absorbAll (store : SourceStore) (changes : List FileChange)
    (root : SourcePath) (project : Project σ) :
    (project.absorbAll store changes root).configuration =
      if changes.any fun change => change.concerns root then configurationAt store root
      else project.configuration :=
  absorbAll_sets configuration (fun change => configuration_absorb store change root)
    changes project

/-- What no change touches in a project. -/
def identity (project : Project σ) : SourcePath × HostOptions × σ :=
  (project.root, project.host.options, project.engineState)

theorem identity_absorb (store : SourceStore) (change : FileChange) (root : SourcePath)
    (project : Project σ) : (project.absorb store change root).identity = project.identity := by
  have noticed : ∀ host : Host,
      (host.noticed store change).value.2.root = host.root ∧
        (host.noticed store change).value.2.options = host.options := by
    intro host
    unfold Host.noticed
    cases change.kind <;> exact ⟨rfl, rfl⟩
  rw [absorb, identity, Project.root, (noticed _).1, (noticed _).2]
  split
  · rw [renewed_eq]
    rfl
  · rfl

theorem identity_absorbAll (store : SourceStore) (changes : List FileChange)
    (root : SourcePath) (project : Project σ) :
    (project.absorbAll store changes root).identity = project.identity := by
  induction changes generalizing project with
  | nil => rfl
  | cons change rest inductionHypothesis =>
      rw [absorbAll_cons, inductionHypothesis, identity_absorb]

/-- Two projects that no request can tell apart by their texts: they track the same places
with the same contents, have the same listings, and are configured alike. The path inside a snapshot
may be spelled in another way. -/
structure Agrees (left right : Project σ) : Prop where
  identity : left.identity = right.identity
  configuration : left.configuration = right.configuration
  contents : ∀ path, left.content? path = right.content? path
  listings : ∀ path, left.listing? path = right.listing? path

/-- Where all snapshots are captures, projects that agree have the same snapshots. -/
theorem Agrees.snapshot?_eq {texts : String → Prop} {left right : Project σ}
    (agrees : left.Agrees right) (leftCaptures : left.Every (SnapshotCache.IsCapture texts))
    (rightCaptures : right.Every (SnapshotCache.IsCapture texts)) (path : SourcePath) :
    left.snapshot? path = right.snapshot? path := by
  have same : left.host.cache.snapshots.content? path = right.host.cache.snapshots.content? path :=
    agrees.contents path
  rw [snapshot?, snapshot?, SnapshotCache.Every.cached?_eq_capture leftCaptures path,
    SnapshotCache.Every.cached?_eq_capture rightCaptures path, same]

theorem any_eq_any_of_same {α : Type} {left right : List α}
    (same : ∀ item, item ∈ left ↔ item ∈ right) (test : α → Bool) :
    left.any test = right.any test := by
  rw [Bool.eq_iff_iff, List.any_eq_true, List.any_eq_true]
  simp only [same]

/-- Batches with the same changes leave a project in agreement, whatever their order and
however often a change stands in them. -/
theorem absorbAll_agrees (reads : project.ReadsTracked store) {left right : List FileChange}
    (same : ∀ change, change ∈ left ↔ change ∈ right) (root : SourcePath) :
    (project.absorbAll store left root).Agrees (project.absorbAll store right root) where
  identity := by rw [identity_absorbAll, identity_absorbAll]
  configuration := by
    rw [configuration_absorbAll, configuration_absorbAll, any_eq_any_of_same same]
  contents path := by
    rw [content?_absorbAll reads, content?_absorbAll reads, any_eq_any_of_same same,
      any_eq_any_of_same same fun change => change.touches path.components]
  listings path := by
    rw [listing?_absorbAll, listing?_absorbAll, any_eq_any_of_same same]

end Project

end ScriptAnalysis
