import ScriptAnalysis.Proofs.Service.Batch
import ScriptAnalysis.Proofs.Service.Growth
import ScriptAnalysis.Store.Tree

/-!
# Registries whose resolver may fail

In a run every step finds a store and a resolver of its own, and the resolver may fail at any
step. Within a step no root is asked for twice, so this covers resolvers that change their mind
from call to call. A failure to resolve the root of a request creates nothing. A failure to
resolve a changed configuration leaves the project as it was, and the change counts only for what
the hosts notice of it. So whatever fails in a run, the registry stays orderly
(`run_withstands_failures`).
-/

namespace ScriptAnalysis

variable {σ : Type} {engine : Engine σ}

/-- What can be asked of a registry. -/
inductive RegistryCall where
  | obtain (root : SourcePath)
  | diagnostics (root file : SourcePath) (code : String)
  | completions (root file : SourcePath) (code : String) (offset : Nat)
  | change (kind : ChangeKind) (path : SourcePath)

/-- A call with the store and the resolver that it finds. -/
structure RegistryStep where
  store : SourceStore
  resolve : Resolver
  call : RegistryCall

/-- What the registry works with at a step. -/
def RegistryStep.backend (engine : Engine σ) (step : RegistryStep) : Backend σ :=
  ⟨step.store, step.resolve, engine⟩

namespace Registry

variable {registry : Registry σ} {backend : Backend σ}

/-- The registry after a call. -/
def perform (backend : Backend σ) (registry : Registry σ) : RegistryCall → Traced (Registry σ)
  | .obtain root => Prod.snd <$> registry.getOrCreate backend root
  | .diagnostics root file code => Prod.snd <$> registry.diagnostics backend root file code
  | .completions root file code offset =>
      Prod.snd <$> registry.completions backend root file code offset
  | .change kind path => Prod.snd <$> registry.changed backend kind path

/-- The registry after several steps, with the events of all of them. -/
def run (engine : Engine σ) (options : HostOptions) (steps : List RegistryStep) :
    Traced (Registry σ) :=
  steps.foldlM (fun registry step => registry.perform (step.backend engine) step.call)
    (empty options)

theorem run_append (engine : Engine σ) (options : HostOptions) (steps later : List RegistryStep) :
    run engine options (steps ++ later) =
      run engine options steps >>= later.foldlM fun registry step =>
        registry.perform (step.backend engine) step.call :=
  List.foldlM_append

/-- Every call lets the registry grow. -/
theorem grows_perform (notes : engine.NotesNone) (orderly : registry.IsOrderly)
    {step : RegistryStep} (honest : step.resolve.IsHonest) :
    Grows engine registry (registry.perform (step.backend engine) step.call) := by
  obtain ⟨store, resolve, call⟩ := step
  cases call with
  | obtain root => exact grows_getOrCreate orderly honest root
  | diagnostics root file code => exact grows_diagnostics notes orderly honest root file code
  | completions root file code offset =>
      exact grows_completions notes orderly honest root file code offset
  | change kind path => exact grows_changed orderly honest kind path

/-- Several steps let the registry grow. -/
theorem grows_foldlM (notes : engine.NotesNone) (orderly : registry.IsOrderly)
    {steps : List RegistryStep} (honest : ∀ step ∈ steps, step.resolve.IsHonest) :
    Grows engine registry
      (steps.foldlM (fun registry step => registry.perform (step.backend engine) step.call)
        registry) := by
  induction steps generalizing registry with
  | nil => exact grows_self orderly rfl rfl
  | cons step rest inductionHypothesis =>
      have first := grows_perform notes orderly (honest step List.mem_cons_self)
      have others := inductionHypothesis first.orderly fun other member =>
        honest other (List.mem_cons_of_mem step member)
      rw [List.foldlM_cons]
      exact first.trans others rfl rfl

/-- A project none of whose roots can be resolved stays as it is. -/
theorem resolvedInTurn_eq_self {key : SourcePath} {roots : List SourcePath}
    (fails : ∀ root ∈ roots, key.components = root.components →
      ∃ error, (backend.resolve root).value = .error error) (project : Project σ) :
    project.resolvedInTurn backend key roots = project := by
  induction roots with
  | nil => rfl
  | cons root rest inductionHypothesis =>
      have others := inductionHypothesis fun other member =>
        fails other (List.mem_cons_of_mem root member)
      rw [Project.resolvedInTurn, List.foldl_cons, ← Project.resolvedInTurn]
      split
      · next same =>
          obtain ⟨error, failed⟩ := fails root List.mem_cons_self same
          rw [Project.resolvedAgain, failed]
          exact others
      · exact others

/-- A change is processed if a root with a project could be resolved anew, or if a host as it was
before takes note. -/
theorem changed_processed_iff (orderly : registry.IsOrderly) (backend : Backend σ)
    (kind : ChangeKind) (path : SourcePath) :
    (registry.changed backend kind path).value.1 = true ↔
      (∃ root ∈ registry.asked kind path, registry.projects.contains root = true ∧
        ∃ resolved, (backend.resolve root).value = .ok resolved) ∨
      ∃ entry ∈ registry.projects.entries,
        (entry.2.host.changed backend.store kind path).value.1 = true := by
  have isOk : ∀ root, (backend.resolve root).value.isOk = true ↔
      ∃ resolved, (backend.resolve root).value = .ok resolved := by
    intro root
    cases (backend.resolve root).value <;> simp [Except.isOk, Except.toBool]
  rw [changed_value orderly, Bool.or_eq_true, List.any_eq_true]
  simp only [Bool.and_eq_true, isOk]
  by_cases renews : ∃ root ∈ registry.asked kind path, registry.projects.contains root = true ∧
      ∃ resolved, (backend.resolve root).value = .ok resolved
  · exact iff_of_true (.inl renews) (.inl renews)
  · -- No root of a project was resolved, so the hosts that take note are those from before.
    have same : registry.renewedBy backend kind path = registry := by
      refine mapProjects_eq_self fun entry member =>
        resolvedInTurn_eq_self (fun root there same => ?_) entry.2
      have present : registry.projects.contains root = true :=
        List.any_eq_true.mpr ⟨entry, member, beq_iff_eq.mpr same⟩
      cases outcome : (backend.resolve root).value with
      | error error => exact ⟨error, rfl⟩
      | ok resolved => exact absurd ⟨root, there, present, resolved, outcome⟩ renews
    rw [same, List.any_eq_true]

/-- A project none of whose roots could be resolved anew keeps its configuration. -/
theorem configuration_changed (orderly : registry.IsOrderly) (backend : Backend σ)
    (kind : ChangeKind) (path : SourcePath) {entry : SourcePath × Project σ}
    (member : entry ∈ registry.projects.entries)
    (fails : ∀ root ∈ registry.asked kind path, entry.1.components = root.components →
      ∃ error, (backend.resolve root).value = .error error) :
    ∃ project, (entry.1, project) ∈ (registry.changed backend kind path).value.2.projects.entries ∧
      project.configuration = entry.2.configuration := by
  refine ⟨{ entry.2 with host := (entry.2.host.changed backend.store kind path).value.2 }, ?_, ?_⟩
  · rw [changed_value orderly]
    refine mem_mapProjects.mpr ⟨entry.2, ?_, rfl⟩
    exact mem_mapProjects.mpr ⟨entry.2, member, (resolvedInTurn_eq_self fails entry.2).symm⟩
  · rw [Project.configuration, Host.settings_changed]
    rfl

/-- Two roots share a project exactly if they have the same normal form. -/
theorem IsOrderly.shared_iff (orderly : registry.IsOrderly) {left right : SourcePath}
    {first second : Project σ} (atLeft : registry.find? left = some first)
    (atRight : registry.find? right = some second) :
    first = second ↔ left.normalize = right.normalize := by
  constructor
  · rintro rfl
    have rooted : ∀ {asked : SourcePath}, registry.find? asked = some first →
        first.root = asked.normalize := fun found =>
      orderly.rooted _ ((orderly.wellFormed.find?_iff (SourcePath.isPlain_normalize _)).mp found)
    exact (rooted atLeft).symm.trans (rooted atRight)
  · intro same
    rw [find?, same, ← find?, atRight] at atLeft
    exact (Option.some_inj.mp atLeft).symm

/-- In every run over changing stores, whatever the resolvers answer: keys are their own normal
forms and the roots of their projects; requested roots share a project exactly if they have the
same normal form; an engine was built for each key once and for nothing else; no step loses a
project or gives it another engine. A root that cannot be resolved is answered with the error,
without a trace in the registry; and where a changed configuration cannot be resolved, the
project keeps what it had and the change counts only for what the hosts notice. -/
theorem run_withstands_failures (notes : engine.NotesNone) (options : HostOptions)
    (steps : List RegistryStep) (honest : ∀ step ∈ steps, step.resolve.IsHonest) :
    let outcome := run engine options steps
    let registry := outcome.value
    (∀ entry ∈ registry.projects.entries, entry.1.normalize = entry.1 ∧ entry.2.root = entry.1) ∧
    (∀ left right first second, registry.find? left = some first →
      registry.find? right = some second → (first = second ↔ left.normalize = right.normalize)) ∧
    (Event.builtFor outcome.events).Perm registry.projects.keys ∧
    (∀ later : List RegistryStep, (∀ step ∈ later, step.resolve.IsHonest) →
      registry.Evolves engine (run engine options (steps ++ later)).value) ∧
    (∀ (backend : Backend σ) root error, Resolver.IsHonest backend.resolve →
      registry.find? root = none → (backend.resolve root.normalize).value = .error error →
      (registry.getOrCreate backend root).value = (.error error, registry) ∧
        (registry.getOrCreate backend root).BuildsNone) ∧
    ∀ (backend : Backend σ) kind path,
      (∀ entry ∈ registry.projects.entries,
        (∀ root ∈ registry.asked kind path, entry.1.components = root.components →
          ∃ error, (backend.resolve root).value = .error error) →
        ∃ project, (entry.1, project) ∈
            (registry.changed backend kind path).value.2.projects.entries ∧
          project.configuration = entry.2.configuration) ∧
      ((registry.changed backend kind path).value.1 = true ↔
        (∃ root ∈ registry.asked kind path, registry.projects.contains root = true ∧
          ∃ resolved, (backend.resolve root).value = .ok resolved) ∨
        ∃ entry ∈ registry.projects.entries,
          (entry.2.host.changed backend.store kind path).value.1 = true) := by
  intro outcome registry
  have grown : Grows engine (empty options) outcome :=
    grows_foldlM notes (isOrderly_empty options) honest
  have orderly := grown.orderly
  refine ⟨fun entry member => ⟨orderly.normal entry member, orderly.rooted entry member⟩,
    fun left right first second atLeft atRight => orderly.shared_iff atLeft atRight, ?_,
    fun later others => ?_, fun backend root error resolver absent failed => ?_,
    fun backend kind path => ⟨fun entry member => ?_, ?_⟩⟩
  · have keys := grown.keys
    rw [show (empty options : Registry σ).projects.keys = [] from rfl, List.append_nil] at keys
    exact keys.symm
  · rw [run_append, Traced.value_bind]
    exact (grows_foldlM notes orderly others).evolves
  · rw [getOrCreate_of_failed absent failed]
    exact ⟨rfl, resolver.buildsNone _⟩
  · exact configuration_changed orderly backend kind path member
  · exact changed_processed_iff orderly backend kind path

/-- A resolver that is offline at first and whenever the configuration changes. The root is asked
for under three spellings. -/
theorem run_withstands_failures_offline_resolver :
    let store := (Tree.built [.writeFile ⟨"/p/quill.toml"⟩ "[lint]\n"]).store
    let backend := Backend.overStore store DelimiterEngine.engine
    let offline : Resolver := fun _ => pure (.error ⟨"resolver offline"⟩)
    let steps : List RegistryStep :=
      [⟨store, offline, .obtain ⟨"/p"⟩⟩,
        ⟨store, backend.resolve, .diagnostics ⟨"/p/./"⟩ ⟨"/p/a.ts"⟩ "let a;"⟩,
        ⟨store, offline, .change .file ⟨"/p/quill.toml"⟩⟩,
        ⟨store, offline, .obtain ⟨"/q/../p"⟩⟩]
    (∀ step ∈ steps, step.resolve.IsHonest) ∧
      (run DelimiterEngine.engine HostOptions.standard steps).value.projects.keys = [⟨"/p"⟩] ∧
      (Event.builtFor (run DelimiterEngine.engine HostOptions.standard steps).events).Perm
        [⟨"/p"⟩] ∧
      ∀ entry ∈ (run DelimiterEngine.engine HostOptions.standard steps).value.projects.entries,
        ∃ project, (entry.1, project) ∈
            ((run DelimiterEngine.engine HostOptions.standard steps).value.changed
              ⟨store, offline, DelimiterEngine.engine⟩ .directory ⟨"/"⟩).value.2.projects.entries ∧
          project.configuration = entry.2.configuration := by
  intro store backend offline steps
  have offline_honest : offline.IsHonest := by
    refine ⟨fun resolved => ?_, fun _ => rfl⟩
    cases resolved
  have honest : ∀ step ∈ steps, step.resolve.IsHonest := by
    intro step member
    simp only [steps, List.mem_cons, List.not_mem_nil, or_false] at member
    rcases member with rfl | rfl | rfl | rfl
    · exact offline_honest
    · exact isHonest_overStore store DelimiterEngine.engine
    · exact offline_honest
    · exact offline_honest
  have keys : (run DelimiterEngine.engine HostOptions.standard steps).value.projects.keys =
      [⟨"/p"⟩] := by decide +kernel
  obtain ⟨_, _, built, _, _, changes⟩ :=
    run_withstands_failures DelimiterEngine.notesNone HostOptions.standard steps honest
  refine ⟨honest, keys, built.trans (.of_eq keys), fun entry member => ?_⟩
  exact (changes ⟨store, offline, DelimiterEngine.engine⟩ .directory ⟨"/"⟩).1 entry member
    fun _ _ _ => ⟨_, rfl⟩

end Registry

end ScriptAnalysis
