import ScriptAnalysis.Proofs.Engine.Naming
import ScriptAnalysis.Proofs.Service.Batch
import ScriptAnalysis.Proofs.Service.Pipeline

/-!
# Reachable registries

A registry is `Reachable` if a run of notifications and requests leads to it, each over a
store of its own. Reachable registries are well formed, and a property of snapshots that
every store feeds holds in all their projects when the engine names files plainly.
-/

namespace ScriptAnalysis

variable {σ α : Type} {store : SourceStore} {engine : Engine σ}

namespace Project

variable {fits : SourcePath → Snapshot → Prop} {project : Project σ} {file : SourcePath}
  {code : String}

/-- A new project has loaded its configured files and has no listings. -/
theorem create_value (store : SourceStore) (options : HostOptions) (engineState : σ)
    (resolved : ResolvedProject) :
    (create store options engineState resolved).value =
      ⟨⟨resolved.root, resolved.settings, options,
          ⟨SnapshotCache.empty.loadAll store resolved.rootFiles, DirectoryCache.empty⟩⟩,
        engineState, resolved.lint.map Linter.ofConfig, resolved.errors⟩ := by
  simp only [create, Traced.value_bind, Traced.value_pure, Host.preload_value]
  rfl

/-- A new project has the contents of its configured files. -/
theorem content?_create (store : SourceStore) (options : HostOptions) (engineState : σ)
    (root place : SourcePath) :
    (create store options engineState (resolveProject store root).value).value.content? place =
      Content.settled (isConfigured store root place) false (store.held place.plain) none := by
  rw [create_value]
  exact SnapshotCache.content?_loadAll store (fun _ => isPlain_rootFiles) _ place

theorem every_create (feeds : SnapshotCache.Feeds fits store) (options : HostOptions)
    (engineState : σ) (root : SourcePath) :
    (create store options engineState (resolveProject store root).value).value.Every fits := by
  rw [create_value]
  exact SnapshotCache.every_empty.loadAll feeds fun _ => isPlain_rootFiles

namespace Every

/-- A query whose questions are plain keeps the property, and its answer is as promised. -/
theorem consult {inquiry : σ → EngineAnswer σ α}
    {property : Except EngineError α × σ → Prop} (every : project.Every fits)
    (feeds : SnapshotCache.Feeds fits store) (query : EngineQuery) (file : SourcePath)
    (asks : (inquiry project.engineState).AsksPlainly property) :
    (∃ state, property ((project.consult store query file inquiry).value.1, state)) ∧
      (project.consult store query file inquiry).value.2.Every fits := by
  obtain ⟨promised, kept⟩ := (inquiry project.engineState).every_run asks every feeds
  exact ⟨⟨_, promised⟩, kept⟩

/-- A property that the store feeds survives every step of a request for a plain file. -/
def invariant (feeds : SnapshotCache.Feeds fits store) (names : engine.NamesPlainly)
    (plain : file.IsPlain) (admits : code ≠ "" → SnapshotCache.Admits fits file code) :
    PipelineInvariant store engine file code where
  Holds project := project.Every fits
  Fits finding := finding.IsPlain
  pushed every := SnapshotCache.Every.setContent every feeds plain admits
  looked every := SnapshotCache.Every.snapshot every feeds plain
  consulted stage member every := by
    have asks : ∀ state, (stage.inquiry file state).AsksPlainly LocatesPlainly := by
      intro state
      simp only [stages, List.mem_cons, List.not_mem_nil, or_false] at member
      rcases member with rfl | rfl | rfl
      · exact names.declaration file state plain
      · exact names.semantic file state plain
      · exact names.syntactic file state plain
    obtain ⟨⟨_, located⟩, kept⟩ := every.consult feeds stage.query file (asks _)
    exact ⟨located, kept⟩
  reported kind finding located every := by
    rw [report]
    split
    · exact every
    · next location there =>
        exact SnapshotCache.Every.snapshot every feeds (located location there)
  completed offset every :=
    (every.consult feeds (.completions offset) file (names.completions file offset _ plain)).2

/-- A diagnostics request for a plain file keeps the property. -/
theorem diagnostics (every : project.Every fits) (feeds : SnapshotCache.Feeds fits store)
    (names : engine.NamesPlainly) (plain : file.IsPlain)
    (admits : code ≠ "" → SnapshotCache.Admits fits file code) :
    (project.diagnostics store engine file code).value.2.Every fits :=
  (invariant feeds names plain admits).diagnostics every

/-- A completion request for a plain file keeps the property. -/
theorem completions (every : project.Every fits) (feeds : SnapshotCache.Feeds fits store)
    (names : engine.NamesPlainly) (plain : file.IsPlain)
    (admits : code ≠ "" → SnapshotCache.Admits fits file code) (offset : Nat) :
    (project.completions store engine file code offset).value.2.Every fits :=
  (invariant feeds names plain admits).completions offset every

end Every

end Project

namespace Registry

variable {registry : Registry σ} {root : SourcePath}

/-- The project that a request for a root works with: the one that is there, or a new one. -/
def obtained (store : SourceStore) (engine : Engine σ) (root : SourcePath)
    (registry : Registry σ) : Project σ :=
  match registry.projects.find? root.normalize with
  | some project => project
  | none =>
      (Project.create store registry.options (engine.create root.normalize)
        (resolveProject store root.normalize).value).value

/-- A project is always obtained. -/
theorem getOrCreate_value (store : SourceStore) (engine : Engine σ) (root : SourcePath)
    (registry : Registry σ) :
    (registry.getOrCreate (Backend.overStore store engine) root).value =
      (.ok (registry.obtained store engine root),
        if (registry.projects.find? root.normalize).isSome then registry
        else registry.insert root.normalize (registry.obtained store engine root)) := by
  rw [getOrCreate, obtained]
  cases registry.projects.find? root.normalize <;> rfl

theorem WellFormed.getOrCreate (wellFormed : registry.WellFormed) (root : SourcePath) :
    (registry.getOrCreate (Backend.overStore store engine) root).value.2.WellFormed := by
  rw [getOrCreate_value]
  simp only
  split
  · exact wellFormed
  · exact wellFormed.insert (SourcePath.isPlain_normalize root) _

/-- Other projects are left alone when one is obtained. -/
theorem mem_getOrCreate_iff (wellFormed : registry.WellFormed) {entry : SourcePath × Project σ}
    (other : entry.1 ≠ root.normalize) :
    entry ∈ (registry.getOrCreate (Backend.overStore store engine) root).value.2.projects.entries ↔
      entry ∈ registry.projects.entries := by
  rw [getOrCreate_value]
  simp only
  split
  · rfl
  · rw [wellFormed.mem_insert_iff (SourcePath.isPlain_normalize root), if_neg other]

variable {operation : Project σ → Traced (Except EngineError α × Project σ)}

/-- A request is answered by the project of its root. -/
theorem onProject_value (store : SourceStore) (engine : Engine σ) (root : SourcePath)
    (operation : Project σ → Traced (Except EngineError α × Project σ)) (registry : Registry σ) :
    (registry.onProject (Backend.overStore store engine) root operation).value =
      ((operation (registry.obtained store engine root)).value.1.mapError ServiceError.engine,
        (registry.getOrCreate (Backend.overStore store engine) root).value.2.insert root.normalize
          (operation (registry.obtained store engine root)).value.2) := by
  rw [onProject, Traced.value_bind, getOrCreate_value]
  rfl

theorem WellFormed.onProject (wellFormed : registry.WellFormed) :
    (registry.onProject (Backend.overStore store engine) root operation).value.2.WellFormed := by
  rw [onProject_value]
  exact (wellFormed.getOrCreate root).insert (SourcePath.isPlain_normalize root) _

/-- A request replaces the project of its root and leaves all others alone. -/
theorem mem_onProject_iff (wellFormed : registry.WellFormed) {entry : SourcePath × Project σ} :
    entry ∈ (registry.onProject (Backend.overStore store engine) root
        operation).value.2.projects.entries ↔
      if entry.1 = root.normalize then
        entry.2 = (operation (registry.obtained store engine root)).value.2
      else entry ∈ registry.projects.entries := by
  rw [onProject_value,
    (wellFormed.getOrCreate root).mem_insert_iff (SourcePath.isPlain_normalize root)]
  split
  · rfl
  · next other => rw [mem_getOrCreate_iff wellFormed other]

theorem diagnostics_value (store : SourceStore) (engine : Engine σ) (root file : SourcePath)
    (code : String) (registry : Registry σ) :
    (registry.diagnostics (Backend.overStore store engine) root file code).value =
      (registry.onProject (Backend.overStore store engine) root
        (Project.diagnostics store engine file.normalize code)).value :=
  diagnostics_eq_onProject (Backend.overStore store engine) root file code registry

theorem completions_value (store : SourceStore) (engine : Engine σ) (root file : SourcePath)
    (code : String) (offset : Nat) (registry : Registry σ) :
    (registry.completions (Backend.overStore store engine) root file code offset).value =
      (registry.onProject (Backend.overStore store engine) root
        (Project.completions store engine file.normalize code offset)).value :=
  completions_eq_onProject (Backend.overStore store engine) root file code offset registry

theorem notify_value (wellFormed : registry.WellFormed) (notification : FileChangeNotification) :
    (registry.notify (Backend.overStore store engine) notification).value =
      (notification.changes.any fun change =>
          registry.projects.entries.any fun entry => entry.2.isAffected store change entry.1,
        registry.mapProjects fun root project =>
          project.absorbAll store notification.changes root) := by
  rw [notify, Traced.value_bind, applyAll_value wellFormed]
  rfl

variable {fits : SourcePath → Snapshot → Prop}

/-- Every project has a property of snapshots. -/
def Every (fits : SourcePath → Snapshot → Prop) (registry : Registry σ) : Prop :=
  ∀ entry ∈ registry.projects.entries, entry.2.Every fits

theorem Every.obtained (every : registry.Every fits) (wellFormed : registry.WellFormed)
    (feeds : SnapshotCache.Feeds fits store) (root : SourcePath) :
    (registry.obtained store engine root).Every fits := by
  rw [Registry.obtained]
  split
  · next project found =>
      exact every _ ((wellFormed.find?_iff (SourcePath.isPlain_normalize root)).mp found)
  · exact Project.every_create feeds registry.options _ root.normalize

theorem Every.notify (every : registry.Every fits) (wellFormed : registry.WellFormed)
    (feeds : SnapshotCache.Feeds fits store) (notification : FileChangeNotification) :
    (registry.notify (Backend.overStore store engine) notification).value.2.Every fits := by
  rw [notify_value wellFormed]
  intro entry member
  obtain ⟨old, there, absorbed⟩ := mem_mapProjects.mp member
  rw [absorbed]
  exact Project.Every.absorbAll (every _ there) feeds notification.changes entry.1

/-- A request keeps a property of snapshots if it does so on the project of its root. -/
theorem Every.onProject (every : registry.Every fits) (wellFormed : registry.WellFormed)
    (feeds : SnapshotCache.Feeds fits store)
    (keeps : ∀ project : Project σ, project.Every fits → (operation project).value.2.Every fits) :
    (registry.onProject (Backend.overStore store engine) root operation).value.2.Every fits := by
  intro entry member
  rw [mem_onProject_iff wellFormed] at member
  split at member
  · rw [member]
    exact keeps _ (every.obtained wellFormed feeds root)
  · exact every entry member

theorem Every.diagnostics {file : SourcePath} {code : String} (every : registry.Every fits)
    (wellFormed : registry.WellFormed) (feeds : SnapshotCache.Feeds fits store)
    (names : engine.NamesPlainly)
    (admits : code ≠ "" → SnapshotCache.Admits fits file.normalize code) :
    (registry.diagnostics (Backend.overStore store engine) root file code).value.2.Every fits := by
  rw [diagnostics_value]
  exact every.onProject wellFormed feeds fun project kept =>
    kept.diagnostics feeds names file.isPlain_normalize admits

theorem Every.completions {file : SourcePath} {code : String} (every : registry.Every fits)
    (wellFormed : registry.WellFormed) (feeds : SnapshotCache.Feeds fits store)
    (names : engine.NamesPlainly)
    (admits : code ≠ "" → SnapshotCache.Admits fits file.normalize code) (offset : Nat) :
    (registry.completions (Backend.overStore store engine) root file code
      offset).value.2.Every fits := by
  rw [completions_value]
  exact every.onProject wellFormed feeds fun project kept =>
    kept.completions feeds names file.isPlain_normalize admits offset

/-- A registry to which notifications and requests lead, over any stores. -/
inductive Reachable (engine : Engine σ) : Registry σ → Prop where
  | empty (options : HostOptions) : Reachable engine (Registry.empty options)
  | notify {registry : Registry σ} (before : Reachable engine registry) (store : SourceStore)
      (notification : FileChangeNotification) :
      Reachable engine (registry.notify (Backend.overStore store engine) notification).value.2
  | diagnostics {registry : Registry σ} (before : Reachable engine registry) (store : SourceStore)
      (root file : SourcePath) (code : String) :
      Reachable engine
        (registry.diagnostics (Backend.overStore store engine) root file code).value.2
  | completions {registry : Registry σ} (before : Reachable engine registry) (store : SourceStore)
      (root file : SourcePath) (code : String) (offset : Nat) :
      Reachable engine
        (registry.completions (Backend.overStore store engine) root file code offset).value.2

namespace Reachable

theorem wellFormed (reachable : Reachable engine registry) : registry.WellFormed := by
  induction reachable with
  | empty options => exact wellFormed_empty options
  | notify before store notification inductionHypothesis =>
      rw [notify_value inductionHypothesis]
      exact inductionHypothesis.mapProjects _
  | diagnostics before store root file code inductionHypothesis =>
      rw [diagnostics_value]
      exact inductionHypothesis.onProject
  | completions before store root file code offset inductionHypothesis =>
      rw [completions_value]
      exact inductionHypothesis.onProject

/-- While the engine names files plainly, so is everything that is tracked. -/
theorem every_isCapture (names : engine.NamesPlainly) (reachable : Reachable engine registry) :
    registry.Every (SnapshotCache.IsCapture fun _ => True) := by
  have feeds : ∀ store, SnapshotCache.Feeds (SnapshotCache.IsCapture fun _ => True) store :=
    fun _ => SnapshotCache.feeds_isCapture fun _ _ _ => trivial
  have admits : ∀ (file : SourcePath) (code : String), code ≠ "" →
      SnapshotCache.Admits (SnapshotCache.IsCapture fun _ => True) file.normalize code :=
    fun file _ _ => SnapshotCache.admits_isCapture (SourcePath.isPlain_normalize file) trivial
  induction reachable with
  | empty options =>
      intro entry member
      cases member
  | notify before store notification inductionHypothesis =>
      exact inductionHypothesis.notify before.wellFormed (feeds store) notification
  | diagnostics before store root file code inductionHypothesis =>
      exact inductionHypothesis.diagnostics before.wellFormed (feeds store) names
        (admits file code)
  | completions before store root file code offset inductionHypothesis =>
      exact inductionHypothesis.completions before.wellFormed (feeds store) names
        (admits file code) offset

end Reachable

end Registry

end ScriptAnalysis
