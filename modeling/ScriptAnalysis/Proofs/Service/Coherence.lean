import Mathlib.Data.List.Induction
import ScriptAnalysis.Proofs.Service.World

/-!
# Coherence of the service

A cached content may differ from the tree only for a reason that is on record: a change of
the file is still to be announced, or the content was pushed and not read since. Requests
that read lazily, push, load configured files or renew configurations keep this in all
projects at once, and so do mutations behind their back. So when nothing is left to be
announced, whatever was not pushed is what the tree holds (`tracked_text_eq_tree`).
-/

namespace ScriptAnalysis

namespace World

variable {world : World} {root : SourcePath}

/-- A content of a project is the tree's, or a reason why it may differ is on record. -/
def Explains (world : World) (root : SourcePath) (place : List Component) (content : Content) :
    Prop :=
  place ∈ world.waiting ∨ (root, place) ∈ world.pushed ∨
    world.tree.textAt place = some content.text

/-- Every cached content of every project is explained. -/
def IsCoherent (world : World) : Prop :=
  ∀ entry ∈ world.registry.projects.entries, ∀ path content,
    entry.2.content? path = some content → world.Explains entry.1 path.components content

theorem isCoherent_start (options : HostOptions) : (start options).IsCoherent := by
  intro entry member
  cases member

theorem explains_of_held {path : SourcePath} {content : Content}
    (held : world.tree.store.held path = some content.text) :
    world.Explains root path.components content := by
  rw [Tree.held_eq, Option.filter_eq_some_iff] at held
  exact .inr (.inr held.1)

/-- Distinct versions make a cached content identify every text of the account. -/
theorem identifies_of_distinct {texts : List String} (distinct : DistinctVersions texts)
    {project : Project Unit}
    (every : project.Every (SnapshotCache.IsCapture fun text => text ∈ texts ∧ text ≠ ""))
    {path : SourcePath} {content : Content} (found : project.content? path = some content)
    (held : Option String) (known : ∀ text, held = some text → text ∈ texts) :
    Content.Identifies held content := by
  obtain ⟨snapshot, cached, rfl⟩ := Option.map_eq_some_iff.mp found
  obtain ⟨key, _, capture⟩ := every.of_cached cached
  refine ⟨congrArg Snapshot.version capture.captured, fun text holds same => ?_⟩
  exact distinct _ capture.known.1 text (known text holds) same

/-- The tree changes: what it no longer explains is waiting. -/
theorem IsCoherent.mutate (coherent : world.IsCoherent) (mutation : Mutation) :
    (world.step (.mutate mutation)).IsCoherent := by
  intro entry member path content found
  rcases coherent entry member path content found with waits | pushed | same
  · exact .inl (List.mem_append_left _ waits)
  · exact .inr (.inl pushed)
  · by_cases changed : world.tree.textAt path.components =
        (world.tree.mutate mutation).textAt path.components
    · exact .inr (.inr (changed ▸ same))
    · exact .inl (List.mem_append_right _ (Tree.mem_changedFiles.mpr changed))

/-- A notification settles what it announces, and may load configured files. -/
theorem IsCoherent.notify (coherent : world.IsCoherent) (sound : world.IsSound)
    (distinct : DistinctVersions world.texts) (notification : FileChangeNotification) :
    (world.serve (.notify notification)).IsCoherent := by
  intro entry member path content found
  have after := sound.serve (.notify notification)
  have identifies := identifies_of_distinct distinct (after.captured entry member) found
    (world.tree.store.held path.plain) fun _ held => (sound.held_known held).1
  simp only [serve, backend, Registry.notify_value sound.reachable.wellFormed] at member
  obtain ⟨old, there, absorbed⟩ := Registry.mem_mapProjects.mp member
  have reads : old.ReadsTracked world.tree.store := (sound.captured _ there).readsTracked
  rw [absorbed, Project.content?_absorbAll reads] at found
  rcases Content.held_of_settled identifies found with held | ⟨silent, before⟩
  · rw [← path.components_plain]
    exact explains_of_held held
  · have unannounced : notification.announces path.components = false := silent
    rcases coherent (entry.1, old) there path content before with waits | pushed | same
    · exact .inl (List.mem_filter.mpr ⟨waits, by rw [unannounced]; rfl⟩)
    · exact .inr (.inl (List.mem_filter.mpr ⟨pushed, by rw [unannounced]; rfl⟩))
    · exact .inr (.inr same)

/-- The project that a request works with is explained; a new one holds what it has read. -/
theorem IsCoherent.project (coherent : world.IsCoherent) (sound : world.IsSound)
    (distinct : DistinctVersions world.texts) (root : SourcePath) {path : SourcePath}
    {content : Content} (found : (world.project root).content? path = some content) :
    world.Explains root.normalize path.components content := by
  have identifies := identifies_of_distinct distinct (sound.project root) found
    (world.tree.store.held path.plain) fun _ held => (sound.held_known held).1
  rw [World.project, Registry.obtained] at found
  split at found
  · next project known =>
      have member := (sound.reachable.wellFormed.find?_iff root.isPlain_normalize).mp known
      exact coherent (root.normalize, project) member path content found
  · rw [Project.content?_create] at found
    rcases Content.held_of_settled identifies found with held | ⟨_, nothing⟩
    · rw [← path.components_plain]
      exact explains_of_held held
    · cases nothing

/-- Other contents keep their place in the account of pushes. -/
theorem mem_pushedAfter {file : SourcePath} {code : String} {push : SourcePath × List Component}
    (pushed : push ∈ world.pushed) (other : push ≠ (root.normalize, file.normalize.components)) :
    push ∈ world.pushedAfter root file code := by
  rw [pushedAfter]
  split
  · split
    · exact List.mem_filter.mpr ⟨pushed, by simpa using other⟩
    · exact List.mem_cons_of_mem _ pushed
  · exact pushed

section Request

variable {file : SourcePath} {code : String} {after : Registry Unit} {key : SourcePath}
  {place : List Component} {content : Content}

/-- What a request does not set stays explained. -/
theorem Explains.requested (explained : world.Explains key place content)
    (other : (key, place) ≠ (root.normalize, file.normalize.components)) :
    (world.requested root file code after).Explains key place content :=
  explained.imp_right (Or.imp_left fun pushed => mem_pushedAfter pushed other)

/-- A broken configuration takes no text, so everything stays explained. -/
theorem Explains.requested_of_broken (explained : world.Explains key place content)
    (broken : ¬ (world.project root).configurationErrors.isEmpty) :
    (world.requested root file code after).Explains key place content := by
  refine explained.imp_right (Or.imp_left fun pushed => ?_)
  simpa [World.requested, pushedAfter, broken] using pushed

/-- The content that a request sets was read or pushed. -/
theorem explains_of_effective (takes : (world.project root).configurationErrors.isEmpty)
    (effective : world.tree.store.effective file.normalize code = some content.text) :
    (world.requested root file code after).Explains root.normalize file.normalize.components
      content := by
  rw [SourceStore.effective] at effective
  split at effective
  · have held : (world.requested root file code after).tree.store.held file.normalize =
        some content.text := effective
    exact explains_of_held held
  · next nonempty =>
      refine .inr (.inl ?_)
      simp [World.requested, pushedAfter, takes, nonempty]

/-- A request sets the content of its file, if it takes a text at all, and leaves everything
else alone. -/
theorem IsCoherent.requested (coherent : world.IsCoherent) (sound : world.IsSound)
    (afterSound : (world.requested root file code after).IsSound)
    (distinct : DistinctVersions (code :: world.texts))
    (entries : ∀ entry ∈ after.projects.entries,
      if entry.1 = root.normalize then
        entry.2 = if (world.project root).configurationErrors.isEmpty then
          (world.project root).withContent world.tree.store file.normalize code
        else world.project root
      else entry ∈ world.registry.projects.entries) :
    (world.requested root file code after).IsCoherent := by
  intro entry member path content found
  have identifies := identifies_of_distinct distinct (afterSound.captured entry member) found
    (world.tree.store.effective file.normalize code) fun _ => sound.effective_known
  have fewer := distinct.of_subset (List.subset_cons_self code world.texts)
  have shape := entries entry member
  split at shape
  · next here =>
      rw [here]
      split at shape
      · next takes =>
          rw [shape, Project.content?_withContent] at found
          split at found
          · next same =>
              rw [← same]
              exact explains_of_effective takes (Content.held_of_refreshed identifies found)
          · next differ =>
              exact (coherent.project sound fewer root found).requested fun equal =>
                differ (congrArg Prod.snd equal).symm
      · next broken =>
          rw [shape] at found
          exact (coherent.project sound fewer root found).requested_of_broken broken
  · next other =>
      exact (coherent entry shape path content found).requested fun equal =>
        other (congrArg Prod.fst equal)

end Request

theorem IsCoherent.serve (coherent : world.IsCoherent) (sound : world.IsSound)
    {command : Command} (distinct : DistinctVersions (world.serve command).texts) :
    (world.serve command).IsCoherent := by
  have after := sound.serve command
  have wellFormed := sound.reachable.wellFormed
  cases command with
  | notify notification => exact coherent.notify sound distinct notification
  | diagnostics root file code =>
      refine coherent.requested sound after distinct fun entry member => ?_
      rw [backend, Registry.diagnostics_value, Registry.mem_onProject_iff wellFormed,
        ← World.project, Project.diagnostics_value] at member
      split at member
      · next here =>
          rw [if_pos here, member]
          split <;> rfl
      · next other => rwa [if_neg other]
  | completions root file code offset =>
      refine coherent.requested sound after distinct fun entry member => ?_
      rwa [backend, Registry.completions_value, Registry.mem_onProject_iff wellFormed,
        ← World.project, Project.completions_project] at member

theorem IsCoherent.step (coherent : world.IsCoherent) (sound : world.IsSound)
    {action : WorldAction} (distinct : DistinctVersions (world.step action).texts) :
    (world.step action).IsCoherent := by
  cases action with
  | mutate mutation => exact coherent.mutate mutation
  | serve command => exact coherent.serve sound distinct

theorem texts_subset_step (world : World) (action : WorldAction) :
    world.texts ⊆ (world.step action).texts := by
  cases action with
  | mutate mutation => exact List.subset_append_right _ _
  | serve command =>
      cases command with
      | notify notification => exact List.Subset.refl _
      | diagnostics root file code => exact List.subset_cons_self _ _
      | completions root file code offset => exact List.subset_cons_self _ _

theorem IsCoherent.run {actions : List WorldAction} (coherent : world.IsCoherent)
    (sound : world.IsSound) (distinct : DistinctVersions (world.run actions).texts) :
    (world.run actions).IsCoherent := by
  induction actions using List.reverseRecOn with
  | nil => exact coherent
  | append_singleton before action inductionHypothesis =>
      rw [World.run, List.foldl_append, ← World.run] at distinct ⊢
      have earlier := inductionHypothesis
        (distinct.of_subset (texts_subset_step (world.run before) action))
      exact earlier.step (sound.run before) distinct

/-- When no change of a file is left to be announced, a tracked file whose content was not
last pushed has the text of the tree, which is not empty. -/
theorem tracked_text_eq_tree (options : HostOptions) (actions : List WorldAction)
    (distinct : DistinctVersions ((start options).run actions).texts)
    (settled : ((start options).run actions).waiting = [])
    (root file : SourcePath) (project : Project Unit)
    (found : ((start options).run actions).registry.find? root = some project)
    (snapshot : Snapshot) (tracked : project.cached? file = some snapshot)
    (unpushed : (root.normalize, file.components) ∉ ((start options).run actions).pushed) :
    ((start options).run actions).tree.text? file = some snapshot.text ∧ snapshot.text ≠ "" := by
  have sound := (isSound_start options).run actions
  have coherent := (isCoherent_start options).run (isSound_start options) distinct
  have member := (sound.reachable.wellFormed.find?_iff root.isPlain_normalize).mp found
  have content : project.content? file = some snapshot.content :=
    SnapshotCache.content?_of_cached? tracked
  obtain ⟨key, _, capture⟩ := (sound.captured _ member).of_cached tracked
  refine ⟨?_, capture.known.2⟩
  rcases coherent _ member file _ content with waits | pushed | same
  · rw [settled] at waits
    cases waits
  · exact absurd pushed unpushed
  · exact same

/-- A tracked file is written again, and the directory above it is announced. -/
theorem tracked_text_eq_tree_after_announcement :
    let world := (start ⟨true, ⟨"/lib"⟩⟩).run
      [.mutate (.writeFile ⟨"/p/a.ts"⟩ "old("), .serve (.completions ⟨"/p"⟩ ⟨"/p/a.ts"⟩ "" 0),
        .mutate (.writeFile ⟨"/p/a.ts"⟩ "new)"), .serve (.notify ⟨[⟨.directory, ⟨"/p"⟩⟩]⟩)]
    ∃ project snapshot, world.registry.find? ⟨"/p"⟩ = some project ∧
      project.cached? ⟨"/p/a.ts"⟩ = some snapshot ∧
      world.tree.text? ⟨"/p/a.ts"⟩ = some snapshot.text ∧ snapshot.text ≠ "" := by
  intro world
  have present : ((world.registry.find? ⟨"/p"⟩).bind fun project =>
      project.cached? ⟨"/p/a.ts"⟩).isSome = true := by decide +kernel
  obtain ⟨snapshot, looked⟩ := Option.isSome_iff_exists.mp present
  obtain ⟨project, found, tracked⟩ := Option.bind_eq_some_iff.mp looked
  exact ⟨project, snapshot, found, tracked, tracked_text_eq_tree ⟨true, ⟨"/lib"⟩⟩
    [.mutate (.writeFile ⟨"/p/a.ts"⟩ "old("), .serve (.completions ⟨"/p"⟩ ⟨"/p/a.ts"⟩ "" 0),
      .mutate (.writeFile ⟨"/p/a.ts"⟩ "new)"), .serve (.notify ⟨[⟨.directory, ⟨"/p"⟩⟩]⟩)]
    (by decide +kernel) (by decide +kernel) ⟨"/p"⟩ ⟨"/p/a.ts"⟩ project found snapshot tracked
    (by decide +kernel)⟩

end World

end ScriptAnalysis
