import ScriptAnalysis.Proofs.Service.Configuration
import ScriptAnalysis.Proofs.Service.World

/-!
# Configurations over a changing store

A `Serving` is a registry with any engine over a store that changes in any way, beside the
roots whose configuration file is still to be announced. Which changes matter to a root is a
parameter, and it must cover whatever is observed of a configuration (`Covers`). As long as
nothing is owed for a root, what is observed of its project is what the store holds
(`Follows.current`), however requests, changes and announcements were mixed.
-/

namespace ScriptAnalysis

/-- What happens to a service over a changing store. -/
inductive ServingAction where
  /-- The store becomes another one behind the back of the service, such as a tree after a
  mutation. -/
  | replace (store : SourceStore)
  | serve (command : Command)

/-- A registry, the store that it reads, and the roots to which a change of the store mattered
and whose configuration file was not announced since. -/
structure Serving (σ : Type) where
  store : SourceStore
  registry : Registry σ
  owed : List SourcePath

/-- Whether the text of a root's configuration file is another one. -/
def SourceStore.rewrites (before after : SourceStore) (root : SourcePath) : Bool :=
  before.text? (configFile root) != after.text? (configFile root)

/-- Whether that text is another one, or one of the files that it lists came or went. -/
def SourceStore.relists (before after : SourceStore) (root : SourcePath) : Bool :=
  before.rewrites after root ||
    (before.listed root).any fun file => before.has file != after.has file

namespace Serving

variable {σ β : Type} {engine : Engine σ} {serving : Serving σ}
  {matters : SourceStore → SourceStore → SourcePath → Bool}
  {observe : CompilationSettings × Option Linter × List Diagnostic → β}
  {actions : List ServingAction}

/-- Begin without projects over any store. -/
def start (options : HostOptions) (store : SourceStore) : Serving σ :=
  ⟨store, Registry.empty options, []⟩

/-- What the registry works with. -/
def backend (engine : Engine σ) (serving : Serving σ) : Backend σ :=
  Backend.overStore serving.store engine

/-- Serve a command. A notification settles what is owed for every root whose configuration
file it announces. -/
def serve (engine : Engine σ) (serving : Serving σ) : Command → Serving σ
  | .notify notification =>
      { serving with
        registry := (serving.registry.notify (serving.backend engine) notification).value.2
        owed := serving.owed.filter fun root =>
          !notification.announces (configFile root).components }
  | .diagnostics root file code =>
      { serving with
        registry :=
          (serving.registry.diagnostics (serving.backend engine) root file code).value.2 }
  | .completions root file code offset =>
      { serving with
        registry :=
          (serving.registry.completions (serving.backend engine) root file code offset).value.2 }

/-- One action. A change of the store is owed to every project to which it matters. -/
def step (engine : Engine σ) (matters : SourceStore → SourceStore → SourcePath → Bool)
    (serving : Serving σ) : ServingAction → Serving σ
  | .replace store =>
      { serving with
        store := store
        owed := serving.owed ++
          serving.registry.projects.keys.filter (matters serving.store store) }
  | .serve command => serving.serve engine command

/-- Actions in their order. -/
def run (engine : Engine σ) (matters : SourceStore → SourceStore → SourcePath → Bool)
    (serving : Serving σ) (actions : List ServingAction) : Serving σ :=
  actions.foldl (step engine matters) serving

/-- A change that does not matter to a root does not show in what is observed of its
configuration. -/
def Covers (matters : SourceStore → SourceStore → SourcePath → Bool)
    (observe : CompilationSettings × Option Linter × List Diagnostic → β) : Prop :=
  ∀ before after root, matters before after root = false →
    observe (Project.configurationAt before root) = observe (Project.configurationAt after root)

/-- What is observed of a project is what the store holds, unless something is owed. -/
structure Follows (observe : CompilationSettings × Option Linter × List Diagnostic → β)
    (serving : Serving σ) : Prop where
  wellFormed : serving.registry.WellFormed
  current : ∀ entry ∈ serving.registry.projects.entries, entry.1 ∉ serving.owed →
    observe entry.2.configuration = observe (Project.configurationAt serving.store entry.1)

theorem follows_start (options : HostOptions) (store : SourceStore) :
    (start options store : Serving σ).Follows observe where
  wellFormed := Registry.wellFormed_empty options
  current entry member := by cases member

theorem Follows.replace (follows : serving.Follows observe) (covers : Covers matters observe)
    (store : SourceStore) : (serving.step engine matters (.replace store)).Follows observe where
  wellFormed := follows.wellFormed
  current entry member settled := by
    obtain ⟨earlier, unchanged⟩ := not_or.mp (mt List.mem_append.mpr settled)
    have known : entry.1 ∈ serving.registry.projects.keys := List.mem_map_of_mem member
    have same : matters serving.store store entry.1 = false := by
      rw [← Bool.not_eq_true]
      exact fun differs => unchanged (List.mem_filter.mpr ⟨known, differs⟩)
    exact (follows.current entry member earlier).trans (covers _ _ _ same)

theorem Follows.notify (follows : serving.Follows observe)
    (notification : FileChangeNotification) :
    (serving.serve engine (.notify notification)).Follows observe where
  wellFormed := by
    rw [serve, backend, Registry.notify_value follows.wellFormed]
    exact follows.wellFormed.mapProjects _
  current entry member settled := by
    rw [serve, backend, Registry.notify_value follows.wellFormed] at member
    obtain ⟨old, there, absorbed⟩ := Registry.mem_mapProjects.mp member
    rw [absorbed, Project.configuration_absorbAll]
    split
    · rfl
    · next unconcerned =>
        -- No change concerns the root, so none announces its file: nothing was settled.
        have unannounced : notification.announces (configFile entry.1).components = false := by
          rw [← Bool.not_eq_true]
          refine fun announced => unconcerned ?_
          obtain ⟨change, listed, touches⟩ := List.any_eq_true.mp announced
          rw [← change.concerns_eq_touches (follows.wellFormed.plain _ there)] at touches
          exact List.any_eq_true.mpr ⟨change, listed, touches⟩
        refine follows.current _ there fun owed => settled ?_
        exact List.mem_filter.mpr ⟨owed, by rw [unannounced]; rfl⟩

/-- A request that leaves the configuration of a project as it was creates projects that follow
the store and keeps all others. -/
theorem Follows.onProject {α : Type} (follows : serving.Follows observe) (engine : Engine σ)
    (root : SourcePath) {operation : Project σ → Traced (Except EngineError α × Project σ)}
    (keeps : ∀ project, (operation project).value.2.configuration = project.configuration) :
    Follows observe
      { serving with
        registry :=
          (serving.registry.onProject (serving.backend engine) root operation).value.2 } where
  wellFormed := follows.wellFormed.onProject
  current entry member settled := by
    rw [backend, Registry.mem_onProject_iff follows.wellFormed] at member
    split at member
    · next same =>
        -- The project of the root was there, or it was created over the store as it is now.
        rw [member, keeps, Registry.obtained, same]
        split
        · next project found =>
            have plain := SourcePath.isPlain_normalize root
            have there := (follows.wellFormed.find?_iff plain).mp found
            exact follows.current (root.normalize, project) there (same ▸ settled)
        · rw [Project.configuration_create]
    · exact follows.current entry member settled

/-- What one action keeps. -/
theorem Follows.step (follows : serving.Follows observe) (covers : Covers matters observe)
    (action : ServingAction) : (serving.step engine matters action).Follows observe := by
  cases action with
  | replace store => exact follows.replace covers store
  | serve command =>
      cases command with
      | notify notification => exact follows.notify notification
      | diagnostics root file code =>
          have served := follows.onProject engine root fun project =>
            project.configuration_diagnostics serving.store engine file.normalize code
          rwa [backend, ← Registry.diagnostics_value] at served
      | completions root file code offset =>
          have served := follows.onProject engine root fun project =>
            project.configuration_completions serving.store engine file.normalize code offset
          rwa [backend, ← Registry.completions_value] at served

/-- What a whole run keeps. -/
theorem Follows.run (follows : serving.Follows observe) (engine : Engine σ)
    (covers : Covers matters observe) (actions : List ServingAction) :
    (serving.run engine matters actions).Follows observe := by
  induction actions generalizing serving with
  | nil => exact follows
  | cons action rest inductionHypothesis => exact inductionHypothesis (follows.step covers action)

/-- The project of a root for which nothing is owed is configured as the store says. -/
theorem Follows.configuration_eq (follows : serving.Follows observe) {root : SourcePath}
    {project : Project σ} (live : serving.registry.find? root = some project)
    (announced : root.normalize ∉ serving.owed) :
    observe project.configuration =
      observe (Project.configurationAt serving.store root.normalize) := by
  have plain := SourcePath.isPlain_normalize root
  exact follows.current _ ((follows.wellFormed.find?_iff plain).mp live) announced

/-- Settings and linter, without the errors. -/
def setup (configuration : CompilationSettings × Option Linter × List Diagnostic) :
    CompilationSettings × Option Linter :=
  (configuration.1, configuration.2.1)

theorem covers_setup : Covers SourceStore.rewrites setup := by
  intro before after root unchanged
  have same : before.text? (configFile root) = after.text? (configFile root) := by
    simpa [SourceStore.rewrites] using unchanged
  obtain ⟨settings, lint⟩ := resolveProject_settings_congr same
  simp only [setup, Project.configurationAt, settings, lint]

/-- The errors of a configuration. -/
def errors (configuration : CompilationSettings × Option Linter × List Diagnostic) :
    List Diagnostic :=
  configuration.2.2

theorem covers_errors : Covers SourceStore.relists errors := by
  intro before after root unchanged
  obtain ⟨unwritten, present⟩ := Bool.or_eq_false_iff.mp unchanged
  have same : before.text? (configFile root) = after.text? (configFile root) := by
    simpa [SourceStore.rewrites] using unwritten
  refine resolveProject_errors_congr same fun file member => ?_
  simpa using List.any_eq_false.mp present file member

/-- In every run in which the configuration file of a root was announced after its text last
changed, the settings of the root's project, whether there is a lint stage, the allow list
and the limit are those that the store says, with any engine. -/
theorem settings_follow_store (engine : Engine σ) (options : HostOptions) (store : SourceStore)
    (actions : List ServingAction) {root : SourcePath} {project : Project σ}
    (live : ((start options store).run engine SourceStore.rewrites actions).registry.find? root =
      some project)
    (announced : root.normalize ∉
      ((start options store).run engine SourceStore.rewrites actions).owed) :
    let now := ((start options store).run engine SourceStore.rewrites actions).store
    let resolved := (resolveProject now root.normalize).value
    project.host.settings = resolved.settings ∧
      project.isLinted = resolved.lint.isSome ∧
      project.linter.map (fun linter => linter.config.allow) = resolved.lint.map LintConfig.allow ∧
      project.linter.map (fun linter => linter.config.maxLineLength) =
        resolved.lint.map LintConfig.maxLineLength := by
  intro now resolved
  have follows := (follows_start options store).run engine covers_setup actions
  have same := follows.configuration_eq live announced
  have settings : project.host.settings = resolved.settings := congrArg Prod.fst same
  have linter : project.linter = resolved.lint.map Linter.ofConfig := congrArg Prod.snd same
  refine ⟨settings, ?_, ?_, ?_⟩
  · rw [Project.isLinted, linter, Option.isSome_map]
  · rw [linter, Option.map_map]
    rfl
  · rw [linter, Option.map_map]
    rfl

/-- A directory above the root is announced under an odd spelling after the limit was raised,
and the project of the root has the new limit. -/
theorem settings_follow_store_raised_limit :
    let serving := (start HostOptions.standard Tree.empty.store).run DelimiterEngine.engine
      SourceStore.rewrites
      [.replace (Tree.built [.writeFile ⟨"/p/quill.toml"⟩ "[lint]\nmax_line_length = 80\n"]).store,
        .serve (.diagnostics ⟨"/p/"⟩ ⟨"/p/a.ts"⟩ "let a;"),
        .replace (Tree.built [.writeFile ⟨"/p/quill.toml"⟩ "[lint]\nmax_line_length = 90\n"]).store,
        .serve (.notify ⟨[⟨.directory, ⟨"/q/..//p/."⟩⟩]⟩)]
    ∃ project, serving.registry.find? ⟨"/p"⟩ = some project ∧
      project.linter.map (fun linter => linter.config.maxLineLength) = some 90 := by
  intro serving
  have there : (serving.registry.find? ⟨"/p"⟩).isSome = true := by decide +kernel
  obtain ⟨project, live⟩ := Option.isSome_iff_exists.mp there
  obtain ⟨_, _, _, limit⟩ := settings_follow_store DelimiterEngine.engine HostOptions.standard
    Tree.empty.store _ live (by decide +kernel)
  exact ⟨project, live, limit.trans (by decide +kernel)⟩

/-- In every run in which the configuration file of a root was announced after its text last
changed and after a file that it lists last came or went, the errors of the root's project
are those that the store says, with any engine. So if the configuration can be used, a listed
file is reported as missing exactly while the store lacks it. -/
theorem errors_follow_store (engine : Engine σ) (options : HostOptions) (store : SourceStore)
    (actions : List ServingAction) {root : SourcePath} {project : Project σ}
    (live : ((start options store).run engine SourceStore.relists actions).registry.find? root =
      some project)
    (announced : root.normalize ∉
      ((start options store).run engine SourceStore.relists actions).owed) :
    let now := ((start options store).run engine SourceStore.relists actions).store
    project.configurationErrors = (resolveProject now root.normalize).value.errors ∧
      ∀ config, now.config root.normalize = .ok config →
        ∀ file ∈ config.listed root.normalize,
          missingFile file ∈ project.configurationErrors ↔ now.has file = false := by
  intro now
  have follows := (follows_start options store).run engine covers_errors actions
  have same : project.configurationErrors = (resolveProject now root.normalize).value.errors :=
    follows.configuration_eq live announced
  refine ⟨same, fun config usable file listed => ?_⟩
  rw [same, missingFile_mem_errors_iff usable, and_iff_right listed]

/-- The change of a directory announces that a listed file came, and its error is gone. -/
theorem errors_follow_store_created_file :
    let serving := (start HostOptions.standard Tree.empty.store).run DelimiterEngine.engine
      SourceStore.relists
      [.replace (Tree.built [.writeFile ⟨"/p/quill.toml"⟩ "files = ['a.ts', 'b.ts']"]).store,
        .serve (.diagnostics ⟨"/p"⟩ ⟨"/p/c.ts"⟩ ""),
        .replace (Tree.built [.writeFile ⟨"/p/quill.toml"⟩ "files = ['a.ts', 'b.ts']",
          .writeFile ⟨"/p/a.ts"⟩ ""]).store,
        .serve (.notify ⟨[⟨.directory, ⟨"/p"⟩⟩]⟩)]
    ∃ project, serving.registry.find? ⟨"/p"⟩ = some project ∧
      project.configurationErrors = [missingFile ⟨"/p/b.ts"⟩] := by
  intro serving
  have there : (serving.registry.find? ⟨"/p"⟩).isSome = true := by decide +kernel
  obtain ⟨project, live⟩ := Option.isSome_iff_exists.mp there
  obtain ⟨errors, _⟩ := errors_follow_store DelimiterEngine.engine HostOptions.standard
    Tree.empty.store _ live (by decide +kernel)
  exact ⟨project, live, errors.trans (by decide +kernel)⟩

end Serving

/-- It is not enough to announce the listed file itself: when it is removed and announced, nothing
is waiting in the world, and yet the project misses the error that the store calls for. -/
theorem World.errors_lag_behind_store :
    let world := (start HostOptions.standard).run
      [.mutate (.writeFile ⟨"/p/quill.toml"⟩ "files = ['a.ts']"),
        .mutate (.writeFile ⟨"/p/a.ts"⟩ "let a;"), .serve (.notify ⟨[⟨.directory, ⟨"/p"⟩⟩]⟩),
        .serve (.diagnostics ⟨"/p"⟩ ⟨"/p/b.ts"⟩ ""), .mutate (.removeFile ⟨"/p/a.ts"⟩),
        .serve (.notify ⟨[⟨.file, ⟨"/p/a.ts"⟩⟩]⟩)]
    world.waiting = [] ∧
      (world.registry.find? ⟨"/p"⟩).map Project.configurationErrors = some [] ∧
      (resolveProject world.tree.store ⟨"/p"⟩).value.errors = [missingFile ⟨"/p/a.ts"⟩] := by
  decide +kernel

end ScriptAnalysis
