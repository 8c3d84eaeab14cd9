import ScriptAnalysis.Engine.Delimiter
import ScriptAnalysis.Proofs.Service.Configuration
import ScriptAnalysis.Store.Tree

/-!
# When a notification is processed

A change `Hits` a project if the project tracks what the change names, or something below it,
or takes its configuration from there. A batch is processed exactly if one of its changes
hits a project as it was before the batch, whatever the changes before that one did. A batch
that hits nothing is `Quiet`: it leaves the registry as it was and does not ask the store.
-/

namespace ScriptAnalysis

variable {σ α β : Type} {store : SourceStore} {engine : Engine σ}

namespace Traced

/-- The computation neither reads nor lists anything. -/
structure Quiet (computation : Traced α) : Prop where
  reads : Event.reads computation.events = 0
  listings : Event.listings computation.events = 0

theorem quiet_pure (value : α) : (pure value : Traced α).Quiet := ⟨rfl, rfl⟩

theorem quiet_note {event : Event} (noRead : event.isRead = false)
    (noListing : event.isListing = false) : (note event).Quiet where
  reads := by simp [Event.reads, noRead]
  listings := by simp [Event.listings, noListing]

/-- One quiet step after the other is quiet. -/
theorem Quiet.bind {first : Traced α} {next : α → Traced β} (quiet : first.Quiet)
    (then_quiet : (next first.value).Quiet) : (first >>= next).Quiet where
  reads := by rw [events_bind, Event.reads_append, quiet.reads, then_quiet.reads]
  listings := by rw [events_bind, Event.listings_append, quiet.listings, then_quiet.listings]

end Traced

namespace DirectoryCache

/-- Something is dropped exactly if a listing at or below the directory is cached. -/
theorem pos_invalidateUnder_iff (directory : SourcePath) (cache : DirectoryCache) :
    0 < (cache.invalidateUnder directory).1 ↔
      ∃ path, path.within directory = true ∧ (cache.cached? path).isSome = true := by
  constructor
  · intro dropped
    by_contra none
    have kept : (cache.invalidateUnder directory).1 = 0 := by
      refine Nat.sub_eq_zero_iff_le.mpr (Nat.le_of_eq ?_)
      refine congrArg List.length (List.filter_eq_self.mpr fun entry member => ?_).symm
      have listed : (cache.cached? entry.1).isSome = true := by
        rw [cached?, ← PathMap.contains_eq_isSome, PathMap.contains]
        exact List.any_eq_true.mpr ⟨entry, member, beq_self_eq_true _⟩
      by_contra inside
      exact none ⟨entry.1, by simpa using inside, listed⟩
    omega
  · rintro ⟨path, inside, listed⟩
    by_contra none
    have same := invalidateUnder_eq_self (Nat.eq_zero_of_not_pos none)
    have gone := cached?_invalidateUnder cache directory path
    rw [same, if_pos inside] at gone
    simp [gone] at listed

end DirectoryCache

namespace FileChange

/-- The change is about something that a project of a root knows: a tracked file or the
configuration file; for a directory, one of them or a cached listing at or below it. -/
def Hits (change : FileChange) (root : SourcePath) (project : Project σ) : Prop :=
  let path := change.path.normalize
  match change.kind with
  | .file =>
      project.host.cache.isTracked path = true ∨
        path.components = root.components ++ [.name configFileName]
  | .directory =>
      (configFile root).within path = true ∨
        (∃ file, file.within path = true ∧ project.host.cache.isTracked file = true) ∨
        ∃ directory, directory.within path = true ∧ (project.listing? directory).isSome = true

end FileChange

namespace Host

variable {change : FileChange} {host : Host}

/-- A host is affected by the change of a file it tracks, and by the change of a directory with
something cached at or below it. -/
theorem noticed_iff (store : SourceStore) (change : FileChange) (host : Host) :
    (host.noticed store change).value.1 = true ↔
      match change.kind with
      | .file => host.cache.isTracked change.path.normalize = true
      | .directory =>
          (∃ file, file.within change.path.normalize = true ∧ host.cache.isTracked file = true) ∨
            ∃ directory, directory.within change.path.normalize = true ∧
              (host.cache.directories.cached? directory).isSome = true := by
  rw [noticed]
  cases change.kind with
  | file =>
      have outcome : (host.fileChanged store change.path.normalize).value.1 =
          (host.cache.snapshots.fileChanged store change.path.normalize).value.1 := rfl
      rw [outcome, SnapshotCache.fileChanged_value]
      simp only [SourceCache.isTracked]
      split <;> simp_all
  | directory =>
      have outcome : (host.directoryChanged store change.path.normalize).value.1 =
          (decide (0 < (host.cache.snapshots.refreshUnder store change.path.normalize).value.1) ||
            decide (0 < (host.cache.directories.invalidateUnder change.path.normalize).1)) := rfl
      rw [outcome, Bool.or_eq_true, decide_eq_true_eq, decide_eq_true_eq,
        SnapshotCache.pos_refreshUnder_iff, DirectoryCache.pos_invalidateUnder_iff]
      rfl

/-- A host that is not affected does not ask the store. -/
theorem noticed_quiet (unaffected : (host.noticed store change).value.1 = false) :
    (host.noticed store change).Quiet := by
  rw [noticed] at unaffected ⊢
  cases kind : change.kind with
  | file =>
      rw [kind] at unaffected
      have outcome : (host.cache.snapshots.fileChanged store change.path.normalize).value.1 =
          false := unaffected
      rw [SnapshotCache.fileChanged_value] at outcome
      have still : host.cache.snapshots.fileChanged store change.path.normalize =
          pure (false, host.cache.snapshots) := by
        rw [SnapshotCache.fileChanged]
        split at outcome
        · cases outcome
        · next untracked => rw [if_neg untracked]
      refine .bind (.bind (.bind ?_ (Traced.quiet_pure _)) ?_) (Traced.quiet_pure _)
      · rw [still]
        exact Traced.quiet_pure _
      · exact .bind (Traced.quiet_note rfl rfl) (Traced.quiet_pure _)
  | directory =>
      rw [kind] at unaffected
      obtain ⟨noFiles, _⟩ := Bool.or_eq_false_iff.mp unaffected
      have none : host.cache.snapshots.trackedUnder change.path.normalize = [] :=
        List.length_eq_zero_iff.mp (Nat.eq_zero_of_not_pos (of_decide_eq_false noFiles))
      refine .bind (.bind (.bind ?_ (Traced.quiet_pure _)) ?_) (Traced.quiet_pure _)
      · rw [SnapshotCache.refreshUnder, none]
        exact .bind (Traced.quiet_pure _) (Traced.quiet_pure _)
      · exact .bind (Traced.quiet_note rfl rfl) (Traced.quiet_pure _)

end Host

/-- A project with a plain root is affected by the changes that hit it. -/
theorem Project.isAffected_iff {root : SourcePath} (plain : root.IsPlain) (store : SourceStore)
    (change : FileChange) (project : Project σ) :
    project.isAffected store change root = true ↔ change.Hits root project := by
  rw [isAffected, Bool.or_eq_true, Host.noticed_iff, FileChange.Hits, FileChange.concerns]
  cases change.kind with
  | file =>
      simp only [decide_eq_true_eq]
      rw [FileChange.configuredRoot?_normalize_iff plain, components_configFile]
      exact or_comm
  | directory => rfl

/-- A project that none of the changes affects stays as it is. -/
theorem Project.absorbAll_eq_self {root : SourcePath} {project : Project σ}
    {changes : List FileChange}
    (unaffected : ∀ change ∈ changes, project.isAffected store change root = false) :
    project.absorbAll store changes root = project := by
  induction changes with
  | nil => rfl
  | cons change rest inductionHypothesis =>
      rw [absorbAll_cons, absorb_eq_self (unaffected change List.mem_cons_self)]
      exact inductionHypothesis fun other member =>
        unaffected other (List.mem_cons_of_mem change member)

namespace Registry

variable {registry : Registry σ}

/-- Visiting hosts is quiet if each visit is. -/
theorem visit_quiet {operation : Host → Traced (Bool × Host)}
    {entries : List (SourcePath × Project σ)}
    (each : ∀ entry ∈ entries, (operation entry.2.host).Quiet) :
    (visit operation entries).Quiet := by
  induction entries with
  | nil => exact Traced.quiet_pure _
  | cons entry rest inductionHypothesis =>
      refine .bind (.bind (each entry List.mem_cons_self) (Traced.quiet_pure _)) ?_
      refine .bind (inductionHypothesis fun other member => ?_) (Traced.quiet_pure _)
      exact each other (List.mem_cons_of_mem entry member)

/-- Roots without a project are reconfigured in silence, and nothing changes. -/
theorem reconfigureAll_of_absent {backend : Backend σ} {roots : List SourcePath}
    (absent : ∀ root ∈ roots, registry.projects.find? root = none) :
    registry.reconfigureAll backend roots = pure (false, registry) := by
  induction roots with
  | nil => rfl
  | cons root rest inductionHypothesis =>
      have others := inductionHypothesis fun other member =>
        absent other (List.mem_cons_of_mem root member)
      rw [reconfigureAll, reconfigure, absent root List.mem_cons_self]
      simp only [pure_bind, others, Bool.or_self]

/-- No project of the registry is affected by the change. -/
def Unaffected (store : SourceStore) (change : FileChange) (registry : Registry σ) : Prop :=
  ∀ entry ∈ registry.projects.entries, entry.2.isAffected store change entry.1 = false

/-- A change that affects no project leaves the registry as it was. -/
theorem Unaffected.apply_value {change : FileChange}
    (unaffected : registry.Unaffected store change) (wellFormed : registry.WellFormed) :
    (registry.apply (Backend.overStore store engine) change).value = (false, registry) := by
  rw [Registry.apply_value wellFormed, mapProjects_eq_self fun entry member =>
    Project.absorb_eq_self (unaffected entry member)]
  refine congrArg (·, registry) (List.any_eq_false.mpr fun entry member => ?_)
  rw [unaffected entry member]
  exact Bool.false_ne_true

/-- A change that affects no project does not ask the store. -/
theorem Unaffected.apply_quiet {change : FileChange}
    (unaffected : registry.Unaffected store change) (wellFormed : registry.WellFormed) :
    (registry.apply (Backend.overStore store engine) change).Quiet := by
  have absent : ∀ root ∈ registry.reconfiguredBy change, registry.projects.find? root = none := by
    have unknown : registry.projects.keys.any change.concerns = false := by
      refine List.any_eq_false.mpr fun key member => ?_
      obtain ⟨entry, there, rfl⟩ := List.mem_map.mp member
      rw [(Bool.or_eq_false_iff.mp (unaffected entry there)).1]
      exact Bool.false_ne_true
    rw [← any_reconfiguredBy wellFormed, List.any_eq_false] at unknown
    intro root there
    have missing := unknown root there
    rwa [PathMap.contains_eq_isSome, Bool.not_eq_true, Option.isSome_eq_false_iff,
      Option.isNone_iff_eq_none] at missing
  have visited : (registry.onHosts (Host.noticed store change)).Quiet :=
    .bind (visit_quiet fun entry member =>
      Host.noticed_quiet (Bool.or_eq_false_iff.mp (unaffected entry member)).2)
      (Traced.quiet_pure _)
  have shape : registry.apply (Backend.overStore store engine) change =
      registry.reconfigureAll (Backend.overStore store engine) (registry.reconfiguredBy change) >>=
        fun reconfigured => reconfigured.2.onHosts (Host.noticed store change) >>=
          fun noticed => pure (reconfigured.1 || noticed.1, noticed.2) := by
    unfold apply reconfiguredBy Host.noticed
    cases change.kind <;> rfl
  rw [shape, reconfigureAll_of_absent absent]
  exact .bind (Traced.quiet_pure _) (.bind visited (Traced.quiet_pure _))

/-- A batch of changes that affect no project does not ask the store. -/
theorem applyAll_quiet (wellFormed : registry.WellFormed) {changes : List FileChange}
    (unaffected : ∀ change ∈ changes, registry.Unaffected store change) :
    (registry.applyAll (Backend.overStore store engine) changes).Quiet := by
  induction changes with
  | nil => exact Traced.quiet_pure _
  | cons change rest inductionHypothesis =>
      have first := unaffected change List.mem_cons_self
      have same : (registry.apply (Backend.overStore store engine) change).value.2 = registry :=
        congrArg Prod.snd (first.apply_value wellFormed)
      have others := inductionHypothesis fun other member =>
        unaffected other (List.mem_cons_of_mem change member)
      -- The changes that follow meet the registry as it was.
      rw [← same] at others
      exact .bind (first.apply_quiet wellFormed) (.bind others (Traced.quiet_pure _))

/-- A notification is processed exactly if one of its changes hits a project as it was before,
whatever the changes before that one do. If it is not processed, the registry stays as it was
and the store is neither read nor listed. -/
theorem notify_processed_iff (reachable : Reachable engine registry) (store : SourceStore)
    (notification : FileChangeNotification) :
    let outcome := registry.notify (Backend.overStore store engine) notification
    (outcome.value.1 = true ↔
      ∃ change ∈ notification.changes, ∃ entry ∈ registry.projects.entries,
        change.Hits entry.1 entry.2) ∧
      (outcome.value.1 = false →
        outcome.value.2 = registry ∧ Event.reads outcome.events = 0 ∧
          Event.listings outcome.events = 0) := by
  intro outcome
  have wellFormed := reachable.wellFormed
  have processed : outcome.value.1 = notification.changes.any fun change =>
      registry.projects.entries.any fun entry => entry.2.isAffected store change entry.1 :=
    congrArg Prod.fst (notify_value wellFormed notification)
  refine ⟨?_, fun unprocessed => ?_⟩
  · simp only [processed, List.any_eq_true]
    refine exists_congr fun change => and_congr_right fun _ => exists_congr fun entry =>
      and_congr_right fun member => ?_
    exact Project.isAffected_iff (wellFormed.plain entry member) store change entry.2
  · have unaffected : ∀ change ∈ notification.changes, registry.Unaffected store change := by
      rw [processed] at unprocessed
      intro change member entry there
      have none := List.any_eq_false.mp unprocessed change member
      rw [Bool.not_eq_true, List.any_eq_false] at none
      exact Bool.eq_false_iff.mpr (none entry there)
    have same : outcome.value.2 = registry := by
      have absorbed : outcome.value.2 = registry.mapProjects fun root project =>
          project.absorbAll store notification.changes root :=
        congrArg Prod.snd (notify_value wellFormed notification)
      refine absorbed.trans (mapProjects_eq_self fun entry member => ?_)
      exact Project.absorbAll_eq_self fun change there => unaffected change there entry member
    have quiet : outcome.Quiet :=
      .bind (applyAll_quiet wellFormed unaffected)
        (.bind (Traced.quiet_note rfl rfl) (Traced.quiet_pure _))
    exact ⟨same, quiet.reads, quiet.listings⟩

/-- A tracked file has gone. A notification that names it twice behind an unknown file hits a
project, and one about unknown places is quiet. -/
theorem notify_processed_iff_vanished_file :
    let registry := ((empty ⟨true, ⟨"/lib"⟩⟩).diagnostics
      (Backend.overStore (Tree.empty.writeFile ⟨"/p/a.ts"⟩ "old(").store DelimiterEngine.engine)
      ⟨"/p"⟩ ⟨"/p/a.ts"⟩ "").value.2
    let backend := Backend.overStore Tree.empty.store DelimiterEngine.engine
    let changes := [⟨.file, ⟨"/p/b.ts"⟩⟩, ⟨.file, ⟨"/p/./a.ts"⟩⟩, ⟨.file, ⟨"/p/a.ts"⟩⟩]
    let quiet := registry.notify backend ⟨[⟨.file, ⟨"/p/b.ts"⟩⟩, ⟨.directory, ⟨"/p/src"⟩⟩]⟩
    ((registry.notify backend ⟨changes⟩).value.1 = true ∧
        ∃ change ∈ changes, ∃ entry ∈ registry.projects.entries, change.Hits entry.1 entry.2) ∧
      quiet.value.1 = false ∧ quiet.value.2 = registry ∧ Event.reads quiet.events = 0 ∧
        Event.listings quiet.events = 0 := by
  intro registry backend changes quiet
  have reachable : Reachable DelimiterEngine.engine registry :=
    .diagnostics (.empty ⟨true, ⟨"/lib"⟩⟩) _ ⟨"/p"⟩ ⟨"/p/a.ts"⟩ ""
  have processed : (registry.notify backend ⟨changes⟩).value.1 = true := by decide +kernel
  have unprocessed : quiet.value.1 = false := by decide +kernel
  exact ⟨⟨processed, (notify_processed_iff reachable _ _).1.mp processed⟩, unprocessed,
    (notify_processed_iff reachable _ _).2 unprocessed⟩

end Registry

end ScriptAnalysis
