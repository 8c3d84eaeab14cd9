import ScriptAnalysis.Proofs.Config.Resolve
import ScriptAnalysis.Proofs.Path.Route
import ScriptAnalysis.Proofs.Service.Continuity
import ScriptAnalysis.Proofs.Service.Creation

/-!
# How a registry grows

A registry resolves a root when a project is created and whenever its configuration file may have
changed. The resolver may be any that is honest about the root it was asked for, and each time it
may fail. Whatever it answers, a registry stays orderly and `Grows`: an engine is built exactly
when a key comes in, and no entry is lost or given another engine.
-/

namespace ScriptAnalysis

variable {σ α : Type} {engine : Engine σ}

/-- A way to resolve roots. -/
abbrev Resolver := SourcePath → Traced (Except InternalError ResolvedProject)

/-- Every root is answered with an error or with a project for that very root. The resolver builds
no engines. -/
structure Resolver.IsHonest (resolve : Resolver) : Prop where
  root : ∀ {asked resolved}, (resolve asked).value = .ok resolved → resolved.root = asked
  buildsNone : ∀ asked, (resolve asked).BuildsNone

theorem root_resolveProject (store : SourceStore) (root : SourcePath) :
    (resolveProject store root).value.root = root := by
  rw [resolveProject_value]
  cases store.config root <;> rfl

/-- Resolving roots by the configuration files of a store is honest. -/
theorem isHonest_overStore (store : SourceStore) (engine : Engine σ) :
    Resolver.IsHonest (Backend.overStore store engine).resolve where
  root resolved := by
    cases resolved
    exact root_resolveProject store _
  buildsNone asked := (buildsNone_resolveProject store asked).bind (Traced.buildsNone_pure _)

namespace Registry

variable {registry before : Registry σ} {root : SourcePath} {backend : Backend σ}

/-- Take note of a changed path as it is written. -/
def changed (backend : Backend σ) (kind : ChangeKind) (path : SourcePath)
    (registry : Registry σ) : Traced (Bool × Registry σ) :=
  match kind with
  | .file => registry.fileChanged backend path
  | .directory => registry.directoryChanged backend path

/-- The roots that are to be resolved anew after a change. -/
def asked (kind : ChangeKind) (path : SourcePath) (registry : Registry σ) : List SourcePath :=
  match kind with
  | .file => (configuredRoot? path).toList
  | .directory => registry.rootsUnder path

/-- Keys are in ascending order, each is its own normal form, and each is the root of its
project. -/
structure IsOrderly (registry : Registry σ) : Prop where
  ascending : registry.projects.Ascending
  normal : ∀ entry ∈ registry.projects.entries, entry.1.normalize = entry.1
  rooted : ∀ entry ∈ registry.projects.entries, entry.2.root = entry.1

theorem isOrderly_empty (options : HostOptions) : (empty options : Registry σ).IsOrderly where
  ascending := PathMap.ascending_empty
  normal entry member := by cases member
  rooted entry member := by cases member

theorem IsOrderly.wellFormed (orderly : registry.IsOrderly) : registry.WellFormed where
  ascending := orderly.ascending
  plain entry member := orderly.normal entry member ▸ entry.1.isPlain_normalize

/-- Every project is still there and has gone on. -/
def Evolves (engine : Engine σ) (before after : Registry σ) : Prop :=
  ∀ entry ∈ before.projects.entries, ∃ project,
    (entry.1, project) ∈ after.projects.entries ∧ Project.Proceeds engine entry.2 project

/-- An orderly registry came of an earlier one: its projects have gone on, and for every other key
an engine was built on the way. -/
structure Grows (engine : Engine σ) (before : Registry σ) (outcome : Traced (Registry σ)) :
    Prop where
  orderly : outcome.value.IsOrderly
  keys : outcome.value.projects.keys.Perm
    (Event.builtFor outcome.events ++ before.projects.keys)
  evolves : before.Evolves engine outcome.value

theorem grows_self (orderly : registry.IsOrderly) {outcome : Traced (Registry σ)}
    (value : outcome.value = registry) (quiet : outcome.BuildsNone) :
    Grows engine registry outcome where
  orderly := value ▸ orderly
  keys := by rw [value, quiet, List.nil_append]
  evolves entry member := ⟨entry.2, value ▸ member, Project.proceeds_refl entry.2⟩

/-- Growth after growth. -/
theorem Grows.trans {first second outcome : Traced (Registry σ)}
    (early : Grows engine before first) (late : Grows engine first.value second)
    (value : outcome.value = second.value)
    (events : outcome.events = first.events ++ second.events) : Grows engine before outcome where
  orderly := value ▸ late.orderly
  keys := by
    rw [value, events, Event.builtFor_append, List.append_assoc]
    exact (late.keys.trans (early.keys.append_left _)).trans (List.perm_append_comm_assoc _ _ _)
  evolves entry member := by
    obtain ⟨project, there, proceeds⟩ := early.evolves entry member
    obtain ⟨later, final, proceeded⟩ := late.evolves _ there
    exact ⟨later, value ▸ final, proceeds.trans proceeded⟩

/-- Events that tell of no engine add nothing to growth. -/
theorem Grows.followed {first outcome : Traced (Registry σ)} (early : Grows engine before first)
    (value : outcome.value = first.value) (tail : Traced Unit) (silent : tail.BuildsNone)
    (events : outcome.events = first.events ++ tail.events) : Grows engine before outcome :=
  have late : Grows engine first.value ⟨first.value, tail.events⟩ :=
    grows_self early.orderly rfl silent
  early.trans late value events

/-- Replacing projects by what they become is growth without new keys. -/
theorem grows_mapProjects (orderly : registry.IsOrderly)
    {replace : SourcePath → Project σ → Project σ}
    (proceeds : ∀ key project, Project.Proceeds engine project (replace key project))
    {outcome : Traced (Registry σ)} (value : outcome.value = registry.mapProjects replace)
    (quiet : outcome.BuildsNone) : Grows engine registry outcome where
  orderly := by
    rw [value]
    refine ⟨List.pairwise_map.mpr orderly.ascending, fun entry member => ?_, fun entry member => ?_⟩
    · obtain ⟨old, there, _⟩ := mem_mapProjects.mp member
      exact orderly.normal (entry.1, old) there
    · obtain ⟨old, there, replaced⟩ := mem_mapProjects.mp member
      rw [replaced, (proceeds entry.1 old).root, orderly.rooted (entry.1, old) there]
  keys := by rw [value, quiet, keys_mapProjects, List.nil_append]
  evolves entry member := by
    refine ⟨replace entry.1 entry.2, ?_, proceeds entry.1 entry.2⟩
    rw [value]
    exact mem_mapProjects.mpr ⟨entry.2, member, rfl⟩

/-- A fresh project under a normal root that has none, with an engine built for it, is growth. -/
theorem grows_insert (orderly : registry.IsOrderly)
    (absent : registry.projects.find? root.normalize = none) {project : Project σ}
    (rooted : project.root = root.normalize) {outcome : Traced (Registry σ)}
    (value : outcome.value = registry.insert root.normalize project)
    (built : Event.builtFor outcome.events = [root.normalize]) :
    Grows engine registry outcome := by
  have plain := root.isPlain_normalize
  have members : ∀ entry : SourcePath × Project σ,
      entry ∈ (registry.insert root.normalize project).projects.entries ↔
        if entry.1 = root.normalize then entry.2 = project
        else entry ∈ registry.projects.entries :=
    fun _ => orderly.wellFormed.mem_insert_iff plain
  refine ⟨?_, ?_, fun entry member => ?_⟩
  · rw [value]
    refine ⟨orderly.ascending.insert _ _, fun entry member => ?_, fun entry member => ?_⟩
    · rw [members] at member
      split at member
      · next same => rw [same, SourcePath.normalize_normalize]
      · exact orderly.normal entry member
    · rw [members] at member
      split at member
      · next same => rw [member, rooted, same]
      · exact orderly.rooted entry member
  · rw [value, built]
    exact PathMap.keys_insert_of_absent absent project
  · have other : entry.1 ≠ root.normalize := by
      rintro same
      rw [orderly.ascending.find?_of_mem member (congrArg _ same)] at absent
      cases absent
    refine ⟨entry.2, ?_, Project.proceeds_refl entry.2⟩
    rw [value, members, if_neg other]
    exact member

/-- A project that is there is obtained and nothing happens. -/
theorem getOrCreate_of_found {project : Project σ}
    (found : registry.projects.find? root.normalize = some project) :
    registry.getOrCreate backend root = pure (.ok project, registry) := by
  rw [getOrCreate]
  simp only [found]

/-- Without a project the root is resolved. If that fails so does the call, and nothing is built. -/
theorem getOrCreate_of_failed {error : InternalError}
    (absent : registry.projects.find? root.normalize = none)
    (failed : (backend.resolve root.normalize).value = .error error) :
    registry.getOrCreate backend root =
      ⟨(.error error, registry), (backend.resolve root.normalize).events⟩ := by
  rw [getOrCreate]
  simp only [absent]
  refine Traced.ext ?_ ?_
  · rw [Traced.value_bind, failed]
    rfl
  · rw [Traced.events_bind, failed]
    exact List.append_nil _

/-- Without a project a root that can be resolved gets one, with an engine of its own. -/
theorem getOrCreate_of_resolved {resolved : ResolvedProject}
    (absent : registry.projects.find? root.normalize = none)
    (succeeded : (backend.resolve root.normalize).value = .ok resolved) :
    let created := Project.create backend.store registry.options
      (backend.engine.create root.normalize) resolved
    registry.getOrCreate backend root =
      ⟨(.ok created.value, registry.insert root.normalize created.value),
        (backend.resolve root.normalize).events ++
          .createdEngine root.normalize :: created.events⟩ := by
  intro created
  rw [getOrCreate]
  simp only [absent]
  refine Traced.ext ?_ ?_
  · rw [Traced.value_bind, succeeded]
    rfl
  · rw [Traced.events_bind, succeeded]
    simp [created]

theorem grows_getOrCreate (orderly : registry.IsOrderly)
    (honest : Resolver.IsHonest backend.resolve) (root : SourcePath) :
    Grows engine registry (Prod.snd <$> registry.getOrCreate backend root) := by
  cases found : registry.projects.find? root.normalize with
  | some project =>
      rw [getOrCreate_of_found found]
      exact grows_self orderly rfl rfl
  | none =>
      have silent := honest.buildsNone root.normalize
      cases outcome : (backend.resolve root.normalize).value with
      | error error =>
          rw [getOrCreate_of_failed found outcome]
          refine grows_self orderly rfl ?_
          rw [Traced.BuildsNone, Traced.events_map]
          exact silent
      | ok resolved =>
          have silentCreation := Project.buildsNone_create backend.store registry.options
            (backend.engine.create root.normalize) resolved
          have rooted : (Project.create backend.store registry.options
              (backend.engine.create root.normalize) resolved).value.root = root.normalize :=
            (Host.root_preload backend.store resolved.rootFiles _).trans (honest.root outcome)
          rw [getOrCreate_of_resolved found outcome]
          refine grows_insert orderly found rooted rfl ?_
          rw [Traced.events_map, Event.builtFor_append, silent]
          exact congrArg (root.normalize :: ·) silentCreation

/-- The project that is obtained is the one of the root from then on. -/
theorem find?_getOrCreate {project : Project σ} {next : Registry σ}
    (obtained : (registry.getOrCreate backend root).value = (.ok project, next)) :
    next.projects.find? root.normalize = some project := by
  cases found : registry.projects.find? root.normalize with
  | some existing =>
      rw [getOrCreate_of_found found] at obtained
      cases obtained
      exact found
  | none =>
      cases outcome : (backend.resolve root.normalize).value with
      | error error =>
          rw [getOrCreate_of_failed found outcome] at obtained
          cases obtained
      | ok resolved =>
          rw [getOrCreate_of_resolved found outcome] at obtained
          cases obtained
          exact (PathMap.find?_insert _ _ _ _).trans (if_pos rfl)

/-- A request grows the registry if its operation lets the project proceed. -/
theorem grows_onProject {operation : Project σ → Traced (Except EngineError α × Project σ)}
    (orderly : registry.IsOrderly) (honest : Resolver.IsHonest backend.resolve)
    (root : SourcePath)
    (proceeds : ∀ project, Project.Proceeds engine project (operation project).value.2)
    (silent : ∀ project, (operation project).BuildsNone) :
    Grows engine registry (Prod.snd <$> registry.onProject backend root operation) := by
  have early : Grows engine registry (Prod.snd <$> registry.getOrCreate backend root) :=
    grows_getOrCreate orderly honest root
  have located : ∀ project next, (registry.getOrCreate backend root).value = (.ok project, next) →
      next.projects.find? root.normalize = some project := fun _ _ => find?_getOrCreate
  rw [onProject]
  generalize registry.getOrCreate backend root = obtained at early located ⊢
  obtain ⟨⟨answer, next⟩, events⟩ := obtained
  cases answer with
  | error error =>
      exact early.followed rfl (pure ()) rfl (by simp)
  | ok project =>
      have replaced := insert_eq_mapProjects early.orderly.ascending (located project next rfl)
        fun other => (operation other).value.2
      have late : Grows engine next ⟨_, (operation project).events⟩ :=
        grows_mapProjects early.orderly (fun key other => ?_) replaced (silent project)
      · exact early.trans late rfl (by simp)
      · split
        · exact proceeds other
        · exact Project.proceeds_refl other

theorem grows_diagnostics (notes : engine.NotesNone) (orderly : registry.IsOrderly)
    {store : SourceStore} {resolve : Resolver} (honest : resolve.IsHonest)
    (root file : SourcePath) (code : String) :
    Grows engine registry
      (Prod.snd <$> registry.diagnostics ⟨store, resolve, engine⟩ root file code) := by
  have early : Grows engine registry (Prod.snd <$> registry.onProject ⟨store, resolve, engine⟩ root
      (Project.diagnostics store engine file.normalize code)) :=
    grows_onProject orderly honest root
      (Project.proceeds_diagnostics store engine file.normalize code)
      (Project.buildsNone_diagnostics notes store file.normalize code)
  rw [diagnostics]
  generalize registry.onProject _ root _ = outcome at early ⊢
  obtain ⟨⟨answer, next⟩, events⟩ := outcome
  cases answer with
  | error error =>
      exact early.followed rfl
        (Traced.note (.diagnosticsFailed root file.normalize error.message)) rfl (by simp)
  | ok report => exact early.followed rfl (pure ()) rfl (by simp)

theorem grows_completions (notes : engine.NotesNone) (orderly : registry.IsOrderly)
    {store : SourceStore} {resolve : Resolver} (honest : resolve.IsHonest)
    (root file : SourcePath) (code : String) (offset : Nat) :
    Grows engine registry
      (Prod.snd <$> registry.completions ⟨store, resolve, engine⟩ root file code offset) := by
  have early : Grows engine registry (Prod.snd <$> registry.onProject ⟨store, resolve, engine⟩ root
      (Project.completions store engine file.normalize code offset)) :=
    grows_onProject orderly honest root
      (Project.proceeds_completions store engine file.normalize code offset)
      (Project.buildsNone_completions notes store file.normalize code offset)
  rw [completions]
  generalize registry.onProject _ root _ = outcome at early ⊢
  obtain ⟨⟨answer, next⟩, events⟩ := outcome
  cases answer with
  | error error =>
      exact early.followed rfl
        (Traced.note (.completionsFailed root file.normalize offset error.message)) rfl (by simp)
  | ok report => exact early.followed rfl (pure ()) rfl (by simp)

/-- The roots are resolved anew, and then every host takes note. -/
theorem changed_eq (backend : Backend σ) (kind : ChangeKind) (path : SourcePath)
    (registry : Registry σ) :
    registry.changed backend kind path =
      registry.reconfigureAll backend (registry.asked kind path) >>= fun reconfigured =>
        reconfigured.2.onHosts (Host.changed backend.store kind path) >>= fun noticed =>
          pure (reconfigured.1 || noticed.1, noticed.2) := by
  cases kind <;> rfl

/-- The registry after the roots that a change asks for were resolved anew. -/
def renewedBy (backend : Backend σ) (kind : ChangeKind) (path : SourcePath)
    (registry : Registry σ) : Registry σ :=
  registry.mapProjects fun key project =>
    project.resolvedInTurn backend key (registry.asked kind path)

theorem changed_value (orderly : registry.IsOrderly) (backend : Backend σ) (kind : ChangeKind)
    (path : SourcePath) :
    (registry.changed backend kind path).value =
      (((registry.asked kind path).any fun root =>
          registry.projects.contains root && (backend.resolve root).value.isOk) ||
          (registry.renewedBy backend kind path).projects.entries.any fun entry =>
            (entry.2.host.changed backend.store kind path).value.1,
        (registry.renewedBy backend kind path).mapProjects fun _ project =>
          { project with host := (project.host.changed backend.store kind path).value.2 }) := by
  rw [changed_eq]
  simp only [Traced.value_bind, Traced.value_pure, reconfigureAll_outcome orderly.ascending,
    onHosts_value, renewedBy]

theorem buildsNone_reconfigure (honest : Resolver.IsHonest backend.resolve) (root : SourcePath)
    (registry : Registry σ) : (registry.reconfigure backend root).BuildsNone := by
  rw [reconfigure]
  split
  · exact Traced.buildsNone_pure _
  · refine (honest.buildsNone root).bind ?_
    split
    · exact (Traced.buildsNone_note rfl).bind (Traced.buildsNone_pure _)
    · exact (Project.buildsNone_reconfigure _ _ _).bind (Traced.buildsNone_pure _)

theorem buildsNone_reconfigureAll (honest : Resolver.IsHonest backend.resolve)
    (roots : List SourcePath) (registry : Registry σ) :
    (registry.reconfigureAll backend roots).BuildsNone := by
  induction roots generalizing registry with
  | nil => exact Traced.buildsNone_pure _
  | cons root rest inductionHypothesis =>
      exact (buildsNone_reconfigure honest root registry).bind
        ((inductionHypothesis _).bind (Traced.buildsNone_pure _))

theorem buildsNone_visit {operation : Host → Traced (Bool × Host)}
    (quiet : ∀ host, (operation host).BuildsNone) (entries : List (SourcePath × Project σ)) :
    (visit operation entries).BuildsNone := by
  induction entries with
  | nil => exact Traced.buildsNone_pure _
  | cons entry rest inductionHypothesis =>
      exact (Project.buildsNone_onHost (quiet entry.2.host)).bind
        (inductionHypothesis.bind (Traced.buildsNone_pure _))

theorem grows_changed (orderly : registry.IsOrderly) (honest : Resolver.IsHonest backend.resolve)
    (kind : ChangeKind) (path : SourcePath) :
    Grows engine registry (Prod.snd <$> registry.changed backend kind path) := by
  have value : (Prod.snd <$> registry.changed backend kind path).value =
      registry.mapProjects fun key project =>
        let renewed := project.resolvedInTurn backend key (registry.asked kind path)
        { renewed with host := (renewed.host.changed backend.store kind path).value.2 } := by
    rw [Traced.value_map, changed_value orderly, renewedBy, mapProjects_mapProjects]
  refine grows_mapProjects orderly (fun key project => ?_) value ?_
  · have proceeds : Project.Proceeds engine project
        (project.resolvedInTurn backend key (registry.asked kind path)) :=
      Project.proceeds_resolvedInTurn backend key _ project
    exact ⟨(Host.root_changed backend.store kind path _).trans proceeds.root, proceeds.engine⟩
  · have noticed : ∀ host : Host, (host.changed backend.store kind path).BuildsNone := by
      intro host
      cases kind
      · exact host.buildsNone_fileChanged backend.store path
      · exact host.buildsNone_directoryChanged backend.store path
    have changed : (registry.changed backend kind path).BuildsNone := by
      rw [changed_eq]
      refine (buildsNone_reconfigureAll honest _ registry).bind ?_
      refine Traced.BuildsNone.bind ?_ (Traced.buildsNone_pure _)
      exact (buildsNone_visit noticed _).bind (Traced.buildsNone_pure _)
    rw [Traced.BuildsNone, Traced.events_map]
    exact changed

end Registry

end ScriptAnalysis
