import Mathlib.Data.List.Induction
import ScriptAnalysis.Proofs.Service.Delimiter
import ScriptAnalysis.Proofs.Service.Growth
import ScriptAnalysis.Proofs.Service.Notification
import ScriptAnalysis.Proofs.Service.Upkeep

/-!
# Where tracked files come from

With the delimiter engine a file is tracked for one of two reasons: a request asked for it while
nothing was wrong with the configuration, or the configuration listed it when the project was
created or took it on anew. One action gives every file that it adds a reason (`Serving.Justifies`),
so in a run every tracked file has one. What the trace tells of configurations is read off the
events of the action itself.
-/

namespace ScriptAnalysis

variable {σ : Type} {store : SourceStore} {engine : Engine σ} {root file : SourcePath}

namespace Event

/-- The events tell that a project was created for the root. -/
def Created (root : SourcePath) (events : List Event) : Prop :=
  ∃ files errors lint, .createdProject root files errors lint ∈ events

/-- The events tell that the project of the root took on its configuration anew. -/
def Reconfigured (root : SourcePath) (events : List Event) : Prop :=
  ∃ files errors, .reconfiguredProject root files errors ∈ events

theorem Created.mono {few many : List Event} (subset : few ⊆ many) :
    Created root few → Created root many :=
  fun ⟨files, errors, lint, member⟩ => ⟨files, errors, lint, subset member⟩

theorem Reconfigured.mono {few many : List Event} (subset : few ⊆ many) :
    Reconfigured root few → Reconfigured root many :=
  fun ⟨files, errors, member⟩ => ⟨files, errors, subset member⟩

end Event

/-- A plain file is tracked exactly if its place has a content. -/
theorem SnapshotCache.Every.mem_tracked_iff {cache : SnapshotCache} {texts : String → Prop}
    (every : cache.Every (IsCapture texts)) (plain : file.IsPlain) :
    file ∈ cache.tracked ↔ (cache.content? file).isSome = true := by
  rw [← isTracked_eq, isTracked, PathMap.contains, List.any_eq_true]
  constructor
  · intro member
    obtain ⟨entry, there, rfl⟩ := List.mem_map.mp member
    exact ⟨entry, there, beq_self_eq_true _⟩
  · rintro ⟨entry, there, same⟩
    rw [← (every entry there).plain.eq_of_components plain (beq_iff_eq.mp same)]
    exact List.mem_map_of_mem there

theorem SnapshotCache.Every.plain_of_mem_tracked {cache : SnapshotCache} {texts : String → Prop}
    (every : cache.Every (IsCapture texts)) (member : file ∈ cache.tracked) : file.IsPlain := by
  obtain ⟨_, capture⟩ := every.of_mem_tracked member
  exact capture.plain

/-- A content after loading and rereading was there before, or it was loaded. -/
theorem Content.of_isSome_settled {loaded rereads : Bool} {held : Option String}
    {old : Option Content} (some : (settled loaded rereads held old).isSome = true) :
    old.isSome = true ∨ loaded = true := by
  cases old with
  | some content => exact .inl rfl
  | none =>
      cases loaded with
      | true => exact .inr rfl
      | false => cases rereads <;> cases some

namespace Project

/-- A project that is created is told of. -/
theorem created_create (store : SourceStore) (options : HostOptions) (engineState : σ)
    (resolved : ResolvedProject) :
    Event.Created resolved.root (create store options engineState resolved).events :=
  ⟨_, _, _, List.mem_append_right _ (List.mem_append_left _ (List.mem_singleton_self _))⟩

/-- A project that takes on a configuration is told of. -/
theorem reconfigured_reconfigure (store : SourceStore) (resolved : ResolvedProject)
    (project : Project σ) :
    Event.Reconfigured project.root (project.reconfigure store resolved).events :=
  ⟨_, _, List.mem_append_right _ (List.mem_append_left _ (List.mem_singleton_self _))⟩

theorem root_renewed (store : SourceStore) (root : SourcePath) (project : Project σ) :
    (project.renewed store root).root = project.root :=
  Host.root_preload store _ _

/-- A plain file at the place of a configured one is that one. -/
theorem mem_rootFiles_of_isConfigured (plain : file.IsPlain)
    (configured : isConfigured store root file = true) :
    file ∈ (resolveProject store root).value.rootFiles := by
  obtain ⟨listed, member, same⟩ := List.any_eq_true.mp configured
  rwa [← (isPlain_rootFiles member).eq_of_components plain (beq_iff_eq.mp same)]

end Project

namespace Registry

variable {registry : Registry σ}

/-- Every reachable project has the root under which it is entered. -/
theorem Reachable.rooted (reachable : Reachable engine registry) :
    ∀ entry ∈ registry.projects.entries, entry.2.root = entry.1 := by
  have obtained : ∀ {registry : Registry σ}, registry.WellFormed →
      (∀ entry ∈ registry.projects.entries, entry.2.root = entry.1) → ∀ store root,
      (registry.obtained store engine root).root = root.normalize := by
    intro registry wellFormed rooted store root
    rw [Registry.obtained]
    split
    · next project found =>
        exact rooted _ ((wellFormed.find?_iff root.isPlain_normalize).mp found)
    · rw [Project.create_value]
      exact root_resolveProject store _
  induction reachable with
  | empty options =>
      intro entry member
      cases member
  | notify before store notification inductionHypothesis =>
      intro entry member
      rw [notify_value before.wellFormed] at member
      obtain ⟨old, there, absorbed⟩ := mem_mapProjects.mp member
      have same := congrArg Prod.fst
        (Project.identity_absorbAll store notification.changes entry.1 old)
      rw [absorbed]
      exact same.trans (inductionHypothesis _ there)
  | diagnostics before store root file code inductionHypothesis =>
      intro entry member
      rw [diagnostics_value, mem_onProject_iff before.wellFormed] at member
      split at member
      · next same =>
          rw [member, (Project.proceeds_diagnostics store engine _ code _).root,
            obtained before.wellFormed inductionHypothesis, same]
      · exact inductionHypothesis entry member
  | completions before store root file code offset inductionHypothesis =>
      intro entry member
      rw [completions_value, mem_onProject_iff before.wellFormed] at member
      split at member
      · next same =>
          rw [member, (Project.proceeds_completions store engine _ code offset _).root,
            obtained before.wellFormed inductionHypothesis, same]
      · exact inductionHypothesis entry member

/-- A request that creates its project tells of it. -/
theorem created_onProject {α : Type} (absent : registry.projects.find? root.normalize = none)
    (operation : Project σ → Traced (Except EngineError α × Project σ)) :
    Event.Created root.normalize
      (registry.onProject (Backend.overStore store engine) root operation).events := by
  have succeeded : ((Backend.overStore store engine).resolve root.normalize).value =
      .ok (resolveProject store root.normalize).value := rfl
  have created := Project.created_create store registry.options (engine.create root.normalize)
    (resolveProject store root.normalize).value
  rw [root_resolveProject] at created
  have obtained : Event.Created root.normalize
      (registry.getOrCreate (Backend.overStore store engine) root).events := by
    rw [getOrCreate_of_resolved absent succeeded]
    exact created.mono fun _ member => List.mem_append_right _ (List.mem_cons_of_mem _ member)
  exact obtained.mono (List.subset_append_left _ _)

/-- There is a project under the root, and it has that root. -/
def HasRooted (root : SourcePath) (registry : Registry σ) : Prop :=
  ∃ project, (root, project) ∈ registry.projects.entries ∧ project.root = root

theorem HasRooted.mapProjects {replace : SourcePath → Project σ → Project σ}
    (rooted : registry.HasRooted root)
    (keeps : ∀ key project, (replace key project).root = project.root) :
    (registry.mapProjects replace).HasRooted root := by
  obtain ⟨project, there, same⟩ := rooted
  exact ⟨replace root project, mem_mapProjects.mpr ⟨project, there, rfl⟩,
    (keeps root project).trans same⟩

/-- Reconfiguring a root that has a project is told of. -/
theorem reconfigured_reconfigure (wellFormed : registry.WellFormed)
    (rooted : registry.HasRooted root) :
    Event.Reconfigured root
      (registry.reconfigure (Backend.overStore store engine) root).events := by
  obtain ⟨project, there, rfl⟩ := rooted
  have told := project.reconfigured_reconfigure store (resolveProject store project.root).value
  rw [reconfigure, wellFormed.ascending.find?_of_mem there rfl]
  exact told.mono fun _ member => List.mem_append_right _ (List.mem_append_left _ member)

/-- Reconfiguring a plain root leaves the registry well formed and every root with its project. -/
theorem HasRooted.reconfigure (rooted : registry.HasRooted root)
    (wellFormed : registry.WellFormed) {other : SourcePath} (plain : other.IsPlain) :
    let next := (registry.reconfigure (Backend.overStore store engine) other).value.2
    next.WellFormed ∧ next.HasRooted root := by
  simp only [reconfigure_value wellFormed plain]
  refine ⟨wellFormed.mapProjects _, rooted.mapProjects fun key project => ?_⟩
  split
  · exact project.root_renewed store key
  · rfl

/-- When several roots are reconfigured, each of them that has a project is told of. -/
theorem reconfigured_reconfigureAll {roots : List SourcePath} (wellFormed : registry.WellFormed)
    (plain : ∀ root ∈ roots, root.IsPlain) (rooted : registry.HasRooted root)
    (member : root ∈ roots) :
    Event.Reconfigured root
      (registry.reconfigureAll (Backend.overStore store engine) roots).events := by
  induction roots generalizing registry with
  | nil => cases member
  | cons first rest inductionHypothesis =>
      rcases List.mem_cons.mp member with rfl | later
      · exact (reconfigured_reconfigure wellFormed rooted).mono (List.subset_append_left _ _)
      · obtain ⟨formed, kept⟩ := rooted.reconfigure wellFormed (plain first List.mem_cons_self)
        have others := inductionHypothesis formed
          (fun other there => plain other (List.mem_cons_of_mem first there)) kept later
        exact others.mono fun _ member =>
          List.mem_append_right _ (List.mem_append_left _ member)

variable {changes : List FileChange}

/-- A change that concerns the root of a project makes it reconfigure. -/
theorem reconfigured_apply (wellFormed : registry.WellFormed) (rooted : registry.HasRooted root)
    {change : FileChange} (concerned : change.concerns root = true) :
    Event.Reconfigured root (registry.apply (Backend.overStore store engine) change).events := by
  have known : root ∈ registry.projects.keys := by
    obtain ⟨project, there, _⟩ := rooted
    exact List.mem_map_of_mem there
  have told : Event.Reconfigured root (registry.reconfigureAll (Backend.overStore store engine)
      (registry.reconfiguredBy change)).events :=
    reconfigured_reconfigureAll wellFormed (fun _ => wellFormed.plain_of_mem_reconfiguredBy) rooted
      ((mem_reconfiguredBy_iff known).mpr concerned)
  refine told.mono ?_
  unfold apply reconfiguredBy
  cases change.kind <;> exact List.subset_append_left _ _

/-- A change leaves the registry well formed and every root with its project. -/
theorem HasRooted.apply (rooted : registry.HasRooted root) (wellFormed : registry.WellFormed)
    (change : FileChange) :
    let next := (registry.apply (Backend.overStore store engine) change).value.2
    next.WellFormed ∧ next.HasRooted root := by
  simp only [apply_value wellFormed]
  refine ⟨wellFormed.mapProjects _, rooted.mapProjects fun key project => ?_⟩
  exact congrArg Prod.fst (Project.identity_absorb store change key project)

/-- A notification with a change that concerns the root of a project makes it reconfigure. -/
theorem reconfigured_notify (wellFormed : registry.WellFormed) (rooted : registry.HasRooted root)
    {notification : FileChangeNotification}
    (concerned : (notification.changes.any fun change => change.concerns root) = true) :
    Event.Reconfigured root
      (registry.notify (Backend.overStore store engine) notification).events := by
  have told : ∀ {changes : List FileChange} {registry : Registry σ}, registry.WellFormed →
      registry.HasRooted root → (changes.any fun change => change.concerns root) = true →
      Event.Reconfigured root
        (registry.applyAll (Backend.overStore store engine) changes).events := by
    intro changes
    induction changes with
    | nil => intro _ _ _ concerned; cases concerned
    | cons change rest inductionHypothesis =>
        intro registry wellFormed rooted concerned
        rw [List.any_cons, Bool.or_eq_true] at concerned
        rcases concerned with first | later
        · exact (reconfigured_apply wellFormed rooted first).mono (List.subset_append_left _ _)
        · obtain ⟨formed, kept⟩ := rooted.apply wellFormed change
          exact (inductionHypothesis formed kept later).mono fun _ member =>
            List.mem_append_right _ (List.mem_append_left _ member)
  exact (told wellFormed rooted concerned).mono (List.subset_append_left _ _)

end Registry

namespace Project

/-- A plain file that a project tracks after a batch was tracked before, or a change concerns the
root and its configuration lists the file. -/
theorem tracked_absorbAll {project : Project σ} {texts : String → Prop}
    (every : project.Every (SnapshotCache.IsCapture texts)) (changes : List FileChange)
    (plain : file.IsPlain)
    (tracked : ((project.absorbAll store changes root).content? file).isSome = true) :
    file ∈ project.host.tracked ∨
      (changes.any fun change => change.concerns root) = true ∧
        file ∈ (resolveProject store root).value.rootFiles := by
  rw [content?_absorbAll every.readsTracked] at tracked
  refine (Content.of_isSome_settled tracked).imp
    (SnapshotCache.Every.mem_tracked_iff every plain).mpr fun loaded => ?_
  obtain ⟨concerned, configured⟩ := (Bool.and_eq_true _ _).mp loaded
  exact ⟨concerned, mem_rootFiles_of_isConfigured plain configured⟩

/-- Setting the content of a file adds that file only. -/
theorem tracked_withContent {project : Project Unit} {code : String} {place : SourcePath}
    (tracked : ((project.withContent store file code).content? place).isSome = true) :
    (project.content? place).isSome = true ∨ file.components = place.components := by
  rw [content?_withContent] at tracked
  split at tracked
  · next same => exact .inr same
  · exact .inl tracked

/-- A request adds its own file only, and only if nothing is wrong with the configuration. -/
def AddsOnly {α : Type} (file : SourcePath)
    (operation : Project Unit → Traced (Except EngineError α × Project Unit)) : Prop :=
  ∀ project place, ((operation project).value.2.content? place).isSome = true →
    (project.content? place).isSome = true ∨
      project.configurationErrors = [] ∧ file.components = place.components

theorem addsOnly_diagnostics (store : SourceStore) (file : SourcePath) (code : String) :
    AddsOnly file (Project.diagnostics store DelimiterEngine.engine file code) := by
  intro project place tracked
  rw [diagnostics_value] at tracked
  split at tracked
  · next sound => exact (tracked_withContent tracked).imp_right (⟨List.isEmpty_iff.mp sound, ·⟩)
  · exact .inl tracked

theorem addsOnly_completions (store : SourceStore) (file : SourcePath) (code : String)
    (offset : Nat) :
    AddsOnly file (Project.completions store DelimiterEngine.engine file code offset) := by
  intro project place tracked
  rw [completions_project] at tracked
  split at tracked
  · next sound => exact (tracked_withContent tracked).imp_right (⟨List.isEmpty_iff.mp sound, ·⟩)
  · exact .inl tracked

end Project

namespace Registry

/-- What a notification adds to the tracked files of a project is listed by its configuration, and
the notification reconfigured the project. -/
theorem tracked_notify {registry : Registry σ} (reachable : Reachable engine registry)
    (names : engine.NamesPlainly) (store : SourceStore) (notification : FileChangeNotification)
    {entry : SourcePath × Project σ}
    (member : entry ∈ (registry.notify (Backend.overStore store engine)
      notification).value.2.projects.entries)
    (tracked : file ∈ entry.2.host.tracked) :
    (∃ old, (entry.1, old) ∈ registry.projects.entries ∧ file ∈ old.host.tracked) ∨
      Event.Reconfigured entry.1
          (registry.notify (Backend.overStore store engine) notification).events ∧
        file ∈ (resolveProject store entry.1).value.rootFiles := by
  have wellFormed := reachable.wellFormed
  have after := (reachable.notify store notification).every_isCapture names entry member
  have plain := SnapshotCache.Every.plain_of_mem_tracked after tracked
  have content := (SnapshotCache.Every.mem_tracked_iff after plain).mp tracked
  rw [notify_value wellFormed] at member
  obtain ⟨old, there, absorbed⟩ := mem_mapProjects.mp member
  rw [absorbed] at content
  rcases Project.tracked_absorbAll (reachable.every_isCapture names _ there) notification.changes
    plain content with before | ⟨concerned, listed⟩
  · exact .inl ⟨old, there, before⟩
  · have rooted : registry.HasRooted entry.1 := ⟨old, there, reachable.rooted _ there⟩
    exact .inr ⟨reconfigured_notify wellFormed rooted concerned, listed⟩

/-- What a request adds to the tracked files of a project is its own file, or the request created
the project and the configuration lists the file. -/
theorem tracked_onProject {α : Type} {registry : Registry Unit} {asked : SourcePath}
    {operation : Project Unit → Traced (Except EngineError α × Project Unit)}
    {texts : String → Prop} (adds : Project.AddsOnly asked operation) (plainAsked : asked.IsPlain)
    (wellFormed : registry.WellFormed)
    (before : registry.Every (SnapshotCache.IsCapture texts))
    (after : (registry.onProject (Backend.overStore store DelimiterEngine.engine) root
      operation).value.2.Every (SnapshotCache.IsCapture texts))
    {entry : SourcePath × Project Unit}
    (member : entry ∈ (registry.onProject (Backend.overStore store DelimiterEngine.engine) root
      operation).value.2.projects.entries)
    (tracked : file ∈ entry.2.host.tracked) :
    (∃ old, (entry.1, old) ∈ registry.projects.entries ∧ file ∈ old.host.tracked) ∨
      root.normalize = entry.1 ∧
        (asked = file ∧
            (registry.obtained store DelimiterEngine.engine root).configurationErrors = [] ∨
          Event.Created entry.1 (registry.onProject
              (Backend.overStore store DelimiterEngine.engine) root operation).events ∧
            file ∈ (resolveProject store entry.1).value.rootFiles) := by
  have plain := SnapshotCache.Every.plain_of_mem_tracked (after entry member) tracked
  have content := (SnapshotCache.Every.mem_tracked_iff (after entry member) plain).mp tracked
  rw [mem_onProject_iff wellFormed] at member
  split at member
  · next same =>
      have changed : ((operation (registry.obtained store DelimiterEngine.engine
          root)).value.2.content? file).isSome = true := member ▸ content
      rcases adds _ file changed with earlier | ⟨sound, named⟩
      · rw [obtained] at earlier
        split at earlier
        · next project found =>
            have there := (wellFormed.find?_iff root.isPlain_normalize).mp found
            have known := (SnapshotCache.Every.mem_tracked_iff (before _ there) plain).mpr earlier
            exact .inl ⟨project, same ▸ there, known⟩
        · next absent =>
            -- The project is new, so all it tracks is what its configuration lists.
            rw [Project.content?_create] at earlier
            have listed := (Content.of_isSome_settled earlier).resolve_left Bool.false_ne_true
            refine .inr ⟨same.symm, .inr ?_⟩
            rw [same]
            exact ⟨created_onProject absent operation,
              Project.mem_rootFiles_of_isConfigured plain listed⟩
      · exact .inr ⟨same.symm, .inl ⟨plainAsked.eq_of_components plain named, sound⟩⟩
  · exact .inl ⟨entry.2, member, tracked⟩

end Registry

/-- The root and the file that an action asks for, if it is a request. -/
def ServingAction.asked? : ServingAction → Option (SourcePath × SourcePath)
  | .serve (.diagnostics root file _) => some (root, file)
  | .serve (.completions root file _ _) => some (root, file)
  | _ => none

namespace Serving

/-- The events of an action. -/
def events (engine : Engine σ) (serving : Serving σ) : ServingAction → List Event
  | .replace _ => []
  | .serve (.notify notification) =>
      (serving.registry.notify (serving.backend engine) notification).events
  | .serve (.diagnostics root file code) =>
      (serving.registry.diagnostics (serving.backend engine) root file code).events
  | .serve (.completions root file code offset) =>
      (serving.registry.completions (serving.backend engine) root file code offset).events

/-- The action is a request for the file in the project of the root, and nothing is wrong with the
configuration of the project that it obtains. -/
def AsksFor (engine : Engine σ) (serving : Serving σ) (action : ServingAction)
    (root file : SourcePath) : Prop :=
  ∃ askedRoot askedFile, action.asked? = some (askedRoot, askedFile) ∧
    askedRoot.normalize = root ∧ askedFile.normalize = file ∧
    (serving.registry.obtained serving.store engine askedRoot).configurationErrors = []

/-- The action creates the project of the root or reconfigures it. -/
def Resolves (engine : Engine σ) (serving : Serving σ) (action : ServingAction)
    (root : SourcePath) : Prop :=
  Event.Created root (serving.events engine action) ∨
    Event.Reconfigured root (serving.events engine action)

/-- The action is a reason to track the file in the project of the root: it asks for the file, or
it resolves a configuration that lists it. -/
def Justifies (engine : Engine σ) (serving : Serving σ) (action : ServingAction)
    (root file : SourcePath) : Prop :=
  serving.AsksFor engine action root file ∨
    serving.Resolves engine action root ∧
      file ∈ (resolveProject serving.store root).value.rootFiles

variable {serving : Serving σ} {matters : SourceStore → SourceStore → SourcePath → Bool}

/-- A command leads from a reachable registry to a reachable one. -/
theorem reachable_serve (reachable : Registry.Reachable engine serving.registry)
    (command : Command) : Registry.Reachable engine (serving.serve engine command).registry := by
  cases command with
  | notify notification => exact reachable.notify serving.store notification
  | diagnostics root file code => exact reachable.diagnostics serving.store root file code
  | completions root file code offset =>
      exact reachable.completions serving.store root file code offset

/-- What a request adds to the tracked files of a project it justifies. -/
theorem tracked_request {α : Type} {serving : Serving Unit} {command : Command}
    {asked : SourcePath} {operation : Project Unit → Traced (Except EngineError α × Project Unit)}
    (reachable : Registry.Reachable DelimiterEngine.engine serving.registry)
    (asks : (ServingAction.serve command).asked? = some (root, asked))
    (adds : Project.AddsOnly asked.normalize operation)
    (same : (serving.serve DelimiterEngine.engine command).registry =
      (serving.registry.onProject (serving.backend DelimiterEngine.engine) root operation).value.2)
    (told : (serving.registry.onProject (serving.backend DelimiterEngine.engine) root
      operation).events ⊆ serving.events DelimiterEngine.engine (.serve command))
    {entry : SourcePath × Project Unit}
    (member : entry ∈ (serving.serve DelimiterEngine.engine command).registry.projects.entries)
    (tracked : file ∈ entry.2.host.tracked) :
    (∃ old, (entry.1, old) ∈ serving.registry.projects.entries ∧ file ∈ old.host.tracked) ∨
      serving.Justifies DelimiterEngine.engine (.serve command) entry.1 file := by
  have names := DelimiterEngine.namesPlainly
  have after := (reachable_serve reachable command).every_isCapture names
  rw [same] at after member
  refine (Registry.tracked_onProject adds asked.isPlain_normalize reachable.wellFormed
    (reachable.every_isCapture names) after member tracked).imp_right ?_
  rintro ⟨key, ⟨named, sound⟩ | ⟨created, listed⟩⟩
  · exact .inl ⟨root, asked, asks, key, named, sound⟩
  · exact .inr ⟨.inl (created.mono told), listed⟩

/-- What an action adds to the tracked files of a project it justifies. -/
theorem tracked_step {serving : Serving Unit}
    (reachable : Registry.Reachable DelimiterEngine.engine serving.registry)
    (action : ServingAction) {entry : SourcePath × Project Unit}
    (member : entry ∈ (serving.step DelimiterEngine.engine matters
      action).registry.projects.entries)
    (tracked : file ∈ entry.2.host.tracked) :
    (∃ old, (entry.1, old) ∈ serving.registry.projects.entries ∧ file ∈ old.host.tracked) ∨
      serving.Justifies DelimiterEngine.engine action entry.1 file := by
  cases action with
  | replace store => exact .inl ⟨entry.2, member, tracked⟩
  | serve command =>
      cases command with
      | notify notification =>
          refine (Registry.tracked_notify reachable DelimiterEngine.namesPlainly serving.store
            notification member tracked).imp_right ?_
          exact fun ⟨reconfigured, listed⟩ => .inr ⟨.inr reconfigured, listed⟩
      | diagnostics root asked code =>
          refine tracked_request reachable rfl
            (Project.addsOnly_diagnostics serving.store asked.normalize code) ?_
            (List.subset_append_left _ _) member tracked
          exact congrArg Prod.snd (Registry.diagnostics_value ..)
      | completions root asked code offset =>
          refine tracked_request reachable rfl
            (Project.addsOnly_completions serving.store asked.normalize code offset) ?_
            (List.subset_append_left _ _) member tracked
          exact congrArg Prod.snd (Registry.completions_value ..)

theorem run_concat (engine : Engine σ) (actions : List ServingAction) (action : ServingAction) :
    serving.run engine matters (actions ++ [action]) =
      (serving.run engine matters actions).step engine matters action := by
  rw [run, run, List.foldl_append, List.foldl_cons, List.foldl_nil]

/-- Every run leads to a reachable registry. -/
theorem reachable_run (engine : Engine σ)
    (matters : SourceStore → SourceStore → SourcePath → Bool) (options : HostOptions)
    (store : SourceStore) (actions : List ServingAction) :
    Registry.Reachable engine ((start options store).run engine matters actions).registry := by
  induction actions using List.reverseRecOn with
  | nil => exact .empty options
  | append_singleton actions action inductionHypothesis =>
      rw [run_concat]
      cases action with
      | replace store => exact inductionHypothesis
      | serve command => exact reachable_serve inductionHypothesis command

/-- In a run of the service with the delimiter engine, every tracked file of a project was given a
reason by an earlier action: a request asked for it while nothing was wrong with the configuration,
or the action resolved a configuration that lists it. A notification adds a file only if it
reconfigures the project and the new configuration lists the file. -/
theorem tracked_files_have_reasons
    (matters : SourceStore → SourceStore → SourcePath → Bool) (options : HostOptions)
    (store : SourceStore) (actions : List ServingAction) :
    let run := (start options store).run DelimiterEngine.engine matters
    (∀ entry ∈ (run actions).registry.projects.entries, ∀ file ∈ entry.2.host.tracked,
      ∃ before action, before ++ [action] <+: actions ∧
        (run before).Justifies DelimiterEngine.engine action entry.1 file) ∧
    ∀ notification,
      let action := ServingAction.serve (.notify notification)
      ∀ entry ∈ (run (actions ++ [action])).registry.projects.entries,
        ∀ file ∈ entry.2.host.tracked,
          (∃ old, (entry.1, old) ∈ (run actions).registry.projects.entries ∧
            file ∈ old.host.tracked) ∨
          Event.Reconfigured entry.1 ((run actions).events DelimiterEngine.engine action) ∧
            file ∈ (resolveProject (run actions).store entry.1).value.rootFiles := by
  intro run
  constructor
  · induction actions using List.reverseRecOn with
    | nil => intro entry member; cases member
    | append_singleton actions action inductionHypothesis =>
        intro entry member file tracked
        have reachable := reachable_run DelimiterEngine.engine matters options store actions
        simp only [run, run_concat] at member
        rcases tracked_step reachable action member tracked with ⟨old, there, known⟩ | justifies
        · obtain ⟨before, earlier, earliest, reason⟩ := inductionHypothesis _ there file known
          exact ⟨before, earlier, earliest.trans (List.prefix_append _ _), reason⟩
        · exact ⟨actions, action, List.prefix_rfl, justifies⟩
  · intro notification action entry member file tracked
    have reachable := reachable_run DelimiterEngine.engine matters options store actions
    simp only [run, run_concat] at member
    exact Registry.tracked_notify reachable DelimiterEngine.namesPlainly _ notification member
      tracked

end Serving

end ScriptAnalysis
