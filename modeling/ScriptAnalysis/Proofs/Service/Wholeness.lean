import ScriptAnalysis.Proofs.Cache.Representation
import ScriptAnalysis.Proofs.Service.Failures

/-!
# What all caches of a registry keep

Whatever a host is asked, it does no more to its snapshots than to keep texts and to forget files.
So a property of snapshot caches that survives both, and that the empty cache has, holds in every
project of every run (`caches_run`), whatever the engine asks, the resolvers answer and the stores
hold. In particular every snapshot is whole (`isSound_of_obtained`).
-/

namespace ScriptAnalysis

variable {σ α : Type} {property : SnapshotCache → Prop}

theorem SnapshotCache.Survives.loadAll (survives : Survives property) {cache : SnapshotCache}
    (holds : property cache) (store : SourceStore) (files : List SourcePath) :
    property (cache.loadAll store files) := by
  induction files generalizing cache with
  | nil => exact holds
  | cons file rest inductionHypothesis =>
      exact inductionHypothesis (survives.snapshot holds store file)

namespace Host

/-- The snapshots of the host have the property. -/
def Caches (property : SnapshotCache → Prop) (host : Host) : Prop :=
  property host.cache.snapshots

variable {host : Host}

theorem Caches.answer (holds : host.Caches property) (survives : SnapshotCache.Survives property)
    (store : SourceStore) (question : HostQuestion) :
    (host.answer store question).value.2.Caches property := by
  cases question with
  | scriptVersion path | scriptSnapshot path => exact survives.snapshot holds store path
  | _ => exact holds

theorem Caches.changed (holds : host.Caches property) (survives : SnapshotCache.Survives property)
    (store : SourceStore) (kind : ChangeKind) (path : SourcePath) :
    (host.changed store kind path).value.2.Caches property := by
  cases kind with
  | file => exact survives.fileChanged holds store path
  | directory => exact survives.refreshAll holds store _

/-- An inquiry is no more than its questions. -/
theorem Caches.run (holds : host.Caches property) (survives : SnapshotCache.Survives property)
    (store : SourceStore) (inquiry : Inquiry α) :
    (inquiry.run store host).value.2.Caches property := by
  induction inquiry generalizing host with
  | done result => exact holds
  | note event next inductionHypothesis => exact inductionHypothesis holds
  | ask question next inductionHypothesis =>
      rw [Inquiry.run, Traced.value_bind]
      exact inductionHypothesis _ (holds.answer survives store question)

end Host

namespace Project

variable {project : Project σ}

/-- The property survives every step of a request. -/
def cachesInvariant (survives : SnapshotCache.Survives property) (store : SourceStore)
    (engine : Engine σ) (file : SourcePath) (code : String) :
    PipelineInvariant store engine file code where
  Holds project := project.host.Caches property
  Fits _ := True
  pushed holds := survives.setContent holds store file code
  looked holds := survives.snapshot holds store file
  consulted stage _ holds :=
    ⟨fun _ _ _ _ => trivial, holds.run survives store (stage.inquiry file _)⟩
  reported kind finding _ holds := by
    rw [report]
    split
    · exact holds
    · next location _ => exact survives.snapshot holds store location.file
  completed offset holds := holds.run survives store (engine.completions file offset _)

theorem caches_create (survives : SnapshotCache.Survives property)
    (start : property SnapshotCache.empty) (store : SourceStore) (options : HostOptions)
    (engineState : σ) (resolved : ResolvedProject) :
    (create store options engineState resolved).value.host.Caches property := by
  simp only [create, Traced.value_bind, Traced.value_pure, Host.preload_value]
  exact survives.loadAll start store resolved.rootFiles

theorem caches_reconfigure (survives : SnapshotCache.Survives property)
    (holds : project.host.Caches property) (store : SourceStore) (resolved : ResolvedProject) :
    (project.reconfigure store resolved).value.host.Caches property := by
  rw [reconfigure_value]
  exact survives.loadAll holds store resolved.rootFiles

end Project

namespace Registry

/-- The snapshots of every project have the property. -/
def Caches (property : SnapshotCache → Prop) (registry : Registry σ) : Prop :=
  ∀ entry ∈ registry.projects.entries, entry.2.host.Caches property

variable {registry : Registry σ} {backend : Backend σ}

theorem caches_empty (options : HostOptions) : (empty options : Registry σ).Caches property := by
  intro entry member
  cases member

theorem Caches.find? (holds : registry.Caches property) {root : SourcePath} {project : Project σ}
    (found : registry.projects.find? root = some project) : project.host.Caches property := by
  obtain ⟨key, member, -⟩ := PathMap.mem_of_find? found
  exact holds (key, project) member

theorem Caches.insert (holds : registry.Caches property) (root : SourcePath) {project : Project σ}
    (fresh : project.host.Caches property) : (registry.insert root project).Caches property := by
  intro entry member
  rcases PathMap.mem_insertEntry member with ⟨same, -⟩ | older
  · rw [same]
    exact fresh
  · exact holds entry older

section Survival

variable (survives : SnapshotCache.Survives property)

include survives

/-- The project that is obtained has the property, and so have all others afterwards. -/
theorem Caches.getOrCreate (holds : registry.Caches property)
    (start : property SnapshotCache.empty) (backend : Backend σ) (root : SourcePath) :
    (∀ project, (registry.getOrCreate backend root).value.1 = .ok project →
      project.host.Caches property) ∧
      (registry.getOrCreate backend root).value.2.Caches property := by
  cases found : registry.projects.find? root.normalize with
  | some existing =>
      rw [getOrCreate_of_found found]
      refine ⟨fun project same => ?_, holds⟩
      cases same
      exact holds.find? found
  | none =>
      cases outcome : (backend.resolve root.normalize).value with
      | error error =>
          rw [getOrCreate_of_failed found outcome]
          exact ⟨fun project same => (by cases same), holds⟩
      | ok resolved =>
          have created := Project.caches_create survives start backend.store registry.options
            (backend.engine.create root.normalize) resolved
          rw [getOrCreate_of_resolved found outcome]
          refine ⟨fun project same => ?_, holds.insert root.normalize created⟩
          cases same
          exact created

/-- A request keeps the property if its operation does. -/
theorem Caches.onProject (holds : registry.Caches property)
    (start : property SnapshotCache.empty) (root : SourcePath)
    {operation : Project σ → Traced (Except EngineError α × Project σ)}
    (keeps : ∀ project : Project σ, project.host.Caches property →
      (operation project).value.2.host.Caches property) :
    (registry.onProject backend root operation).value.2.Caches property := by
  obtain ⟨obtained, others⟩ := holds.getOrCreate survives start backend root
  rw [Registry.onProject, Traced.value_bind]
  generalize (registry.getOrCreate backend root).value = outcome at obtained others ⊢
  obtain ⟨answer, next⟩ := outcome
  cases answer with
  | error error => exact others
  | ok project => exact others.insert root.normalize (keeps project (obtained project rfl))

theorem Caches.reconfigure (holds : registry.Caches property) (backend : Backend σ)
    (root : SourcePath) :
    (registry.reconfigure backend root).value.2.Caches property := by
  rw [Registry.reconfigure]
  split
  · exact holds
  · next project found =>
      rw [Traced.value_bind]
      split
      · exact holds
      · next resolved _ =>
          exact holds.insert root
            (Project.caches_reconfigure survives (holds.find? found) backend.store resolved)

theorem Caches.reconfigureAll (holds : registry.Caches property) (backend : Backend σ)
    (roots : List SourcePath) :
    (registry.reconfigureAll backend roots).value.2.Caches property := by
  induction roots generalizing registry with
  | nil => exact holds
  | cons root rest inductionHypothesis =>
      rw [Registry.reconfigureAll, Traced.value_bind]
      exact inductionHypothesis (holds.reconfigure survives backend root)

theorem Caches.changed (holds : registry.Caches property) (kind : ChangeKind)
    (path : SourcePath) : (registry.changed backend kind path).value.2.Caches property := by
  have renewed := holds.reconfigureAll survives backend (registry.asked kind path)
  rw [changed_eq, Traced.value_bind, Traced.value_bind, Traced.value_pure, onHosts_value]
  intro entry member
  obtain ⟨old, there, noticed⟩ := mem_mapProjects.mp member
  rw [noticed]
  exact (renewed (entry.1, old) there).changed survives backend.store kind path

/-- Every call keeps the property. -/
theorem Caches.perform (holds : registry.Caches property)
    (start : property SnapshotCache.empty) (call : RegistryCall) :
    (registry.perform backend call).value.Caches property := by
  cases call with
  | obtain root => exact (holds.getOrCreate survives start backend root).2
  | diagnostics root file code =>
      rw [Registry.perform, Traced.value_map, diagnostics_eq_onProject]
      exact holds.onProject survives start root fun _ kept =>
        (Project.cachesInvariant survives backend.store backend.engine file.normalize
          code).diagnostics kept
  | completions root file code offset =>
      rw [Registry.perform, Traced.value_map, completions_eq_onProject]
      exact holds.onProject survives start root fun _ kept =>
        (Project.cachesInvariant survives backend.store backend.engine file.normalize
          code).completions offset kept
  | change kind path => exact holds.changed survives kind path

/-- Every run leads to registries with the property. -/
theorem caches_run (start : property SnapshotCache.empty) (engine : Engine σ)
    (options : HostOptions) (steps : List RegistryStep) :
    (run engine options steps).value.Caches property := by
  induction steps using List.reverseRecOn with
  | nil => exact caches_empty options
  | append_singleton before step inductionHypothesis =>
      rw [run_append, Traced.value_bind, List.foldlM_cons]
      exact inductionHypothesis.perform survives start step.call

end Survival

/-- A project that is there is the one that is obtained. -/
theorem obtained_of_found {root : SourcePath} {project : Project σ} (backend : Backend σ)
    (found : registry.projects.find? root.normalize = some project) :
    (registry.getOrCreate backend root).value.1 = .ok project := by
  rw [getOrCreate_of_found found]
  rfl

/-- The answer of a request is that of the project which is obtained for it. -/
theorem onProject_of_obtained {root : SourcePath} {project : Project σ}
    (obtained : (registry.getOrCreate backend root).value.1 = .ok project)
    (operation : Project σ → Traced (Except EngineError α × Project σ)) :
    (registry.onProject backend root operation).value.1 =
      (operation project).value.1.mapError ServiceError.engine := by
  rw [onProject, Traced.value_bind]
  generalize (registry.getOrCreate backend root).value = outcome at obtained ⊢
  obtain ⟨answer, next⟩ := outcome
  cases obtained
  rfl

theorem diagnostics_of_obtained {root : SourcePath} {project : Project σ}
    (obtained : (registry.getOrCreate backend root).value.1 = .ok project) (file : SourcePath)
    (code : String) :
    (registry.diagnostics backend root file code).value.1 =
      (project.diagnostics backend.store backend.engine file.normalize
        code).value.1.mapError ServiceError.engine :=
  (congrArg Prod.fst (diagnostics_eq_onProject backend root file code registry)).trans
    (onProject_of_obtained obtained _)

/-- A project that is obtained after a run caches whole snapshots only. -/
theorem isSound_of_obtained {engine : Engine σ} {options : HostOptions}
    {steps : List RegistryStep} {root : SourcePath} {project : Project σ}
    (obtained : ((run engine options steps).value.getOrCreate backend root).value.1 =
      .ok project) : project.host.cache.snapshots.IsSound :=
  have kept := caches_run SnapshotCache.survives_isSound SnapshotCache.isSound_empty engine options
    steps
  (kept.getOrCreate SnapshotCache.survives_isSound SnapshotCache.isSound_empty backend root).1
    project obtained

end Registry

end ScriptAnalysis
