import ScriptAnalysis.Proofs.Service.Delimiter
import ScriptAnalysis.Proofs.Service.Notification
import ScriptAnalysis.Proofs.Service.Posed
import ScriptAnalysis.Proofs.Store.Tree
import ScriptAnalysis.Session.Command

/-!
# A service over a changing tree

A `World` is a registry with the delimiter engine and the tree that it reads. Mutations of
the tree and commands of callers come in any order. Beside the two the world keeps
account of every text that was written or pushed, of the changed files whose announcement
is still owed, and of the files whose content was last pushed and not read. As long as
versions tell the texts apart, caches never show in a report (`diagnostics_eq_stateless`).
-/

namespace ScriptAnalysis

/-- Whether the notification names the place as a file, or a directory at or above it. -/
def FileChangeNotification.announces (notification : FileChangeNotification)
    (place : List Component) : Bool :=
  notification.changes.any fun change => change.touches place

/-- What happens in a world. -/
inductive WorldAction where
  | mutate (mutation : Mutation)
  | serve (command : Command)

/-- A registry and the tree that it reads, with an account of what happened. -/
structure World where
  tree : Tree
  registry : Registry Unit
  /-- Every text that was written or pushed. -/
  texts : List String
  /-- The files whose text changed since they were last announced. -/
  waiting : List (List Component)
  /-- The roots and files for which the last content was a pushed text. -/
  pushed : List (SourcePath × List Component)

namespace World

variable {world : World}

/-- Begin with nothing. -/
def start (options : HostOptions) : World :=
  ⟨Tree.empty, Registry.empty options, [], [], []⟩

/-- What the registry works with. -/
def backend (world : World) : Backend Unit :=
  Backend.overStore world.tree.store DelimiterEngine.engine

/-- The project that a request for a root works with. -/
def project (world : World) (root : SourcePath) : Project Unit :=
  world.registry.obtained world.tree.store DelimiterEngine.engine root

/-- The account of pushed contents after a request. A broken configuration takes no text, and
an empty text means to read the file. -/
def pushedAfter (world : World) (root file : SourcePath) (code : String) :
    List (SourcePath × List Component) :=
  let push := (root.normalize, file.normalize.components)
  if (world.project root).configurationErrors.isEmpty then
    if code.isEmpty then world.pushed.filter fun other => other ≠ push else push :: world.pushed
  else world.pushed

/-- The world after a request with a text has left a registry. -/
def requested (world : World) (root file : SourcePath) (code : String) (after : Registry Unit) :
    World :=
  { world with
    registry := after
    texts := code :: world.texts
    pushed := world.pushedAfter root file code }

/-- Serve a command. -/
def serve (world : World) : Command → World
  | .notify notification =>
      { world with
        registry := (world.registry.notify world.backend notification).value.2
        waiting := world.waiting.filter fun place => !notification.announces place
        pushed := world.pushed.filter fun push => !notification.announces push.2 }
  | .diagnostics root file code =>
      world.requested root file code
        (world.registry.diagnostics world.backend root file code).value.2
  | .completions root file code offset =>
      world.requested root file code
        (world.registry.completions world.backend root file code offset).value.2

/-- One action. A mutation happens behind the back of the registry. -/
def step (world : World) : WorldAction → World
  | .mutate mutation =>
      let after := world.tree.mutate mutation
      { world with
        tree := after
        texts := mutation.texts ++ world.texts
        waiting := world.waiting ++ Tree.changedFiles world.tree after }
  | .serve command => world.serve command

/-- Actions in their order. -/
def run (world : World) (actions : List WorldAction) : World :=
  actions.foldl step world

/-- Every cached snapshot is the capture of a text of the account that is not empty, and so is
what the store holds. -/
structure IsSound (world : World) : Prop where
  reachable : Registry.Reachable DelimiterEngine.engine world.registry
  written : ∀ file ∈ world.tree.files, file.2 ∈ world.texts
  captured : world.registry.Every
    (SnapshotCache.IsCapture fun text => text ∈ world.texts ∧ text ≠ "")

theorem isSound_start (options : HostOptions) : (start options).IsSound where
  reachable := .empty options
  written file member := by cases member
  captured entry member := by cases member

/-- What the store holds is in the account and not empty. -/
theorem IsSound.held_known (sound : world.IsSound) {path : SourcePath} {text : String}
    (held : world.tree.store.held path = some text) : text ∈ world.texts ∧ text ≠ "" := by
  obtain ⟨nonempty, file, member, rfl⟩ := Tree.mem_files_of_held held
  exact ⟨sound.written file member, nonempty⟩

theorem IsSound.feeds (sound : world.IsSound) :
    SnapshotCache.Feeds (SnapshotCache.IsCapture fun text => text ∈ world.texts ∧ text ≠ "")
      world.tree.store :=
  SnapshotCache.feeds_isCapture fun _ _ => sound.held_known

/-- A longer account is sound for the same snapshots. -/
theorem IsSound.captured_of_subset (sound : world.IsSound) {texts : List String}
    (subset : world.texts ⊆ texts) :
    world.registry.Every (SnapshotCache.IsCapture fun text => text ∈ texts ∧ text ≠ "") :=
  fun entry member => SnapshotCache.Every.imp (sound.captured entry member) fun _ _ capture =>
    ⟨capture.plain, ⟨subset capture.known.1, capture.known.2⟩, capture.captured⟩

theorem IsSound.project (sound : world.IsSound) (root : SourcePath) :
    (world.project root).Every
      (SnapshotCache.IsCapture fun text => text ∈ world.texts ∧ text ≠ "") :=
  sound.captured.obtained sound.reachable.wellFormed sound.feeds root

/-- What a request with a text needs: its text in the account, which stays sound. -/
theorem IsSound.pushing (sound : world.IsSound) (file : SourcePath) (code : String) :
    let known := fun text => text ∈ code :: world.texts ∧ text ≠ ""
    world.texts ⊆ code :: world.texts ∧
      world.registry.Every (SnapshotCache.IsCapture known) ∧
      SnapshotCache.Feeds (SnapshotCache.IsCapture known) world.tree.store ∧
      (code ≠ "" → SnapshotCache.Admits (SnapshotCache.IsCapture known) file.normalize code) := by
  have longer := List.subset_cons_self code world.texts
  refine ⟨longer, sound.captured_of_subset longer, ?_, fun nonempty => ?_⟩
  · exact SnapshotCache.feeds_isCapture fun _ _ held =>
      ⟨longer (sound.held_known held).1, (sound.held_known held).2⟩
  · exact SnapshotCache.admits_isCapture file.isPlain_normalize ⟨List.mem_cons_self, nonempty⟩

theorem IsSound.serve (sound : world.IsSound) (command : Command) :
    (world.serve command).IsSound := by
  have wellFormed := sound.reachable.wellFormed
  have names := DelimiterEngine.namesPlainly
  cases command with
  | notify notification =>
      exact ⟨sound.reachable.notify world.tree.store notification, sound.written,
        sound.captured.notify wellFormed sound.feeds notification⟩
  | diagnostics root file code =>
      obtain ⟨longer, every, feeds, admits⟩ := sound.pushing file code
      exact ⟨sound.reachable.diagnostics world.tree.store root file code,
        fun entry member => longer (sound.written entry member),
        every.diagnostics wellFormed feeds names admits⟩
  | completions root file code offset =>
      obtain ⟨longer, every, feeds, admits⟩ := sound.pushing file code
      exact ⟨sound.reachable.completions world.tree.store root file code offset,
        fun entry member => longer (sound.written entry member),
        every.completions wellFormed feeds names admits offset⟩

theorem IsSound.step (sound : world.IsSound) (action : WorldAction) :
    (world.step action).IsSound := by
  cases action with
  | mutate mutation =>
      refine ⟨sound.reachable, fun file member => ?_,
        sound.captured_of_subset (List.subset_append_right _ _)⟩
      rcases Tree.mem_files_mutate member with older | new
      · exact List.mem_append_right _ (sound.written file older)
      · exact List.mem_append_left _ new
  | serve command => exact sound.serve command

theorem IsSound.run (sound : world.IsSound) (actions : List WorldAction) :
    (world.run actions).IsSound := by
  induction actions generalizing world with
  | nil => exact sound
  | cons first rest inductionHypothesis => exact inductionHypothesis (sound.step first)

/-- The text that a request is about is in the account once it was pushed. -/
theorem IsSound.effective_known (sound : world.IsSound) {file : SourcePath} {code text : String}
    (effective : world.tree.store.effective file code = some text) :
    text ∈ code :: world.texts := by
  rw [SourceStore.effective] at effective
  split at effective
  · exact List.mem_cons_of_mem _ (sound.held_known effective).1
  · cases effective
    exact List.mem_cons_self

/-- If versions tell the texts apart, a request finds the capture of its effective text. -/
theorem IsSound.cached?_withContent (sound : world.IsSound) {project : Project Unit}
    (every : project.Every
      (SnapshotCache.IsCapture fun text => text ∈ world.texts ∧ text ≠ ""))
    {file : SourcePath} (plain : file.IsPlain) {code : String}
    (distinct : DistinctVersions (code :: world.texts)) :
    (project.withContent world.tree.store file code).cached? file =
      (world.tree.store.effective file code).map (Snapshot.capture file) := by
  refine SnapshotCache.Every.cached?_setContent every plain fun text effective old known same => ?_
  exact distinct old (List.mem_cons_of_mem code known.1) text (sound.effective_known effective) same

/-- If versions tell the texts apart, a request to a project with a usable configuration is about
its effective text. -/
theorem IsSound.poses (sound : world.IsSound) (root : SourcePath) {file : SourcePath}
    (plain : file.IsPlain) {code text : String}
    (configured : (world.project root).configurationErrors = [])
    (effective : world.tree.store.effective file code = some text)
    (distinct : DistinctVersions (code :: world.texts)) :
    (world.project root).Poses world.tree.store file code text where
  configured := configured
  effective := by
    have nonempty : text ≠ "" := by
      rw [SourceStore.effective] at effective
      split at effective
      · exact (sound.held_known effective).2
      · next pushed =>
          cases effective
          simpa using pushed
    rw [effective, if_neg (by simpa using nonempty)]
  distinct held found same := by
    obtain ⟨known, captured⟩ :=
      SnapshotCache.Every.capture_of_cached (sound.project root) plain found
    rw [captured] at same
    rw [captured, distinct held.text (List.mem_cons_of_mem code known.1) text
      (sound.effective_known effective) same]

/-- After any run, a diagnostics request is answered with the report that its effective text
gets from the configuration of its project alone, as if nothing had ever been cached. -/
theorem diagnostics_eq_stateless (options : HostOptions) (actions : List WorldAction)
    (root file : SourcePath) (code : String)
    (distinct : DistinctVersions (code :: ((start options).run actions).texts)) :
    let world := (start options).run actions
    ∃ project registry,
      (world.registry.getOrCreate world.backend root).value = (.ok project, registry) ∧
      (world.registry.diagnostics world.backend root file code).value.1 =
        .ok (statelessReport project.configurationErrors project.linter file.normalize
          (if code.isEmpty then
            (world.tree.text? file.normalize).filter fun text => !text.isEmpty
          else some code)) := by
  intro world
  have sound : world.IsSound := (isSound_start options).run actions
  refine ⟨world.project root, _, Registry.getOrCreate_value _ _ _ _, ?_⟩
  have found := sound.cached?_withContent (sound.project root) file.isPlain_normalize distinct
  have effective : (if code.isEmpty then
      (world.tree.text? file.normalize).filter fun text => !text.isEmpty else some code) =
      world.tree.store.effective file.normalize code := by
    rw [SourceStore.effective, Tree.held_eq, Tree.text?_eq_textAt]
  rw [effective, backend, Registry.diagnostics_value, Registry.onProject_value, ← World.project,
    Project.diagnostics_report found]
  rfl

/-- A text was pushed and the file was written again and announced; the request after that is
about the written text. -/
theorem diagnostics_eq_stateless_after_push :
    let world := (start ⟨true, ⟨"/lib"⟩⟩).run
      [.mutate (.writeFile ⟨"/p/a.ts"⟩ "old("), .serve (.diagnostics ⟨"/p"⟩ ⟨"/p/a.ts"⟩ "pushed("),
        .mutate (.writeFile ⟨"/p/a.ts"⟩ "new)"), .serve (.notify ⟨[⟨.directory, ⟨"/p"⟩⟩]⟩)]
    ∃ project registry,
      (world.registry.getOrCreate world.backend ⟨"/p"⟩).value = (.ok project, registry) ∧
      (world.registry.diagnostics world.backend ⟨"/p"⟩ ⟨"/p/./a.ts"⟩ "").value.1 =
        .ok (statelessReport project.configurationErrors project.linter ⟨"/p/a.ts"⟩
          (some "new)")) := by
  intro world
  obtain ⟨project, registry, obtained, answer⟩ := diagnostics_eq_stateless ⟨true, ⟨"/lib"⟩⟩
    [.mutate (.writeFile ⟨"/p/a.ts"⟩ "old("), .serve (.diagnostics ⟨"/p"⟩ ⟨"/p/a.ts"⟩ "pushed("),
      .mutate (.writeFile ⟨"/p/a.ts"⟩ "new)"), .serve (.notify ⟨[⟨.directory, ⟨"/p"⟩⟩]⟩)]
    ⟨"/p"⟩ ⟨"/p/./a.ts"⟩ "" (by decide +kernel)
  have normal : (SourcePath.mk "/p/./a.ts").normalize = ⟨"/p/a.ts"⟩ := by decide +kernel
  have text : (world.tree.text? ⟨"/p/a.ts"⟩).filter (fun text => !text.isEmpty) = some "new)" := by
    decide +kernel
  rw [normal, if_pos (by decide), text] at answer
  exact ⟨project, registry, obtained, answer⟩

end World

end ScriptAnalysis
