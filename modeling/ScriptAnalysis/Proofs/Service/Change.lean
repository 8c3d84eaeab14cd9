import ScriptAnalysis.Proofs.Cache.Content
import ScriptAnalysis.Proofs.Cache.Listings
import ScriptAnalysis.Proofs.Service.Registry

/-!
# What a change does

A change renews the projects whose configuration it concerns, and every host notices it.
On a well-formed registry each project absorbs it by itself (`apply_value`), and what
does not affect a project leaves it as it was. So whether a batch affects anything
can be told from the projects before it (`applyAll_value`).
-/

namespace ScriptAnalysis

variable {σ : Type}

namespace FileChange

/-- Whether the change concerns the configuration of a root. -/
def concerns (change : FileChange) (root : SourcePath) : Bool :=
  match change.kind with
  | .file => Registry.configuredRoot? change.path.normalize = some root
  | .directory => (configFile root).within change.path.normalize

/-- Whether the change is about the content at a place. -/
def touches (change : FileChange) (place : List Component) : Bool :=
  match change.kind with
  | .file => change.path.normalize.components = place
  | .directory => change.path.normalize.components.isPrefixOf place

/-- Whether the change drops the listing at a place. -/
def drops (change : FileChange) (place : SourcePath) : Bool :=
  match change.kind with
  | .file => false
  | .directory => place.within change.path.normalize

end FileChange

namespace Host

variable {store : SourceStore} {change : FileChange} {host : Host}

/-- Apply a change to the caches of a host. -/
def noticed (store : SourceStore) (change : FileChange) (host : Host) : Traced (Bool × Host) :=
  match change.kind with
  | .file => host.fileChanged store change.path.normalize
  | .directory => host.directoryChanged store change.path.normalize

/-- A host that is not affected stays as it is. -/
theorem noticed_eq_self (unaffected : (host.noticed store change).value.1 = false) :
    (host.noticed store change).value.2 = host := by
  rw [noticed] at unaffected ⊢
  split at unaffected
  · have unknown : (host.cache.snapshots.fileChanged store change.path.normalize).value.1 = false :=
      unaffected
    have same : (host.cache.snapshots.fileChanged store change.path.normalize).value.2 =
        host.cache.snapshots := by
      rw [SnapshotCache.fileChanged_value] at unknown ⊢
      split at unknown
      · cases unknown
      · next untracked => rw [if_neg untracked]
    exact congrArg (fun snapshots =>
      { host with cache := { host.cache with snapshots := snapshots } }) same
  · obtain ⟨noFiles, noListings⟩ := Bool.or_eq_false_iff.mp unaffected
    have files : (host.cache.snapshots.refreshUnder store change.path.normalize).value.2 =
        host.cache.snapshots :=
      SnapshotCache.refreshUnder_eq_self (Nat.eq_zero_of_not_pos (of_decide_eq_false noFiles))
    have listings : (host.cache.directories.invalidateUnder change.path.normalize).2 =
        host.cache.directories :=
      DirectoryCache.invalidateUnder_eq_self
        (Nat.eq_zero_of_not_pos (of_decide_eq_false noListings))
    show { host with
      cache := ⟨(host.cache.snapshots.refreshUnder store change.path.normalize).value.2,
        (host.cache.directories.invalidateUnder change.path.normalize).2⟩ } = host
    rw [files, listings]

end Host

namespace Project

variable {store : SourceStore} {change : FileChange} {root : SourcePath} {project : Project σ}

/-- The project after a change: with the new configuration if the change concerns it, and
with the change applied to its caches. -/
def absorb (store : SourceStore) (change : FileChange) (root : SourcePath)
    (project : Project σ) : Project σ :=
  let renewed := if change.concerns root then project.renewed store root else project
  { renewed with host := (renewed.host.noticed store change).value.2 }

/-- Whether a change affects a project. -/
def isAffected (store : SourceStore) (change : FileChange) (root : SourcePath)
    (project : Project σ) : Bool :=
  change.concerns root || (project.host.noticed store change).value.1

/-- A project that is not affected stays as it is. -/
theorem absorb_eq_self (unaffected : project.isAffected store change root = false) :
    project.absorb store change root = project := by
  obtain ⟨unconcerned, unnoticed⟩ := Bool.or_eq_false_iff.mp unaffected
  rw [absorb, unconcerned, if_neg Bool.false_ne_true, Host.noticed_eq_self unnoticed]

/-- The project after several changes. -/
def absorbAll (store : SourceStore) (changes : List FileChange) (root : SourcePath)
    (project : Project σ) : Project σ :=
  changes.foldl (fun current change => current.absorb store change root) project

theorem absorbAll_cons (store : SourceStore) (change : FileChange) (rest : List FileChange)
    (root : SourcePath) (project : Project σ) :
    project.absorbAll store (change :: rest) root =
      (project.absorb store change root).absorbAll store rest root := rfl

/-- What every change that passes a test sets to one value, and any other change keeps, is set
by a batch if one of its changes passes. -/
theorem absorbAll_sets {β : Type} (observe : Project σ → β) {value : β}
    {sets : FileChange → Bool}
    (one : ∀ change project, observe (project.absorb store change root) =
      if sets change then value else observe project)
    (changes : List FileChange) (project : Project σ) :
    observe (project.absorbAll store changes root) =
      if changes.any sets then value else observe project := by
  induction changes generalizing project with
  | nil => rfl
  | cons change rest inductionHypothesis =>
      rw [absorbAll_cons, inductionHypothesis, one, List.any_cons]
      cases sets change <;> simp

end Project

namespace Registry

variable {registry : Registry σ} {store : SourceStore} {engine : Engine σ} {root : SourcePath}

theorem WellFormed.nodup_keys (wellFormed : registry.WellFormed) :
    registry.projects.keys.Nodup := by
  refine List.pairwise_map.mpr (wellFormed.ascending.imp fun before same => ?_)
  exact SourcePath.components_ne_of_order_lt before (congrArg SourcePath.components same)

theorem WellFormed.plain_of_mem_keys (wellFormed : registry.WellFormed)
    (member : root ∈ registry.projects.keys) : root.IsPlain := by
  obtain ⟨entry, there, rfl⟩ := List.mem_map.mp member
  exact wellFormed.plain entry there

/-- The root that a normal file configures is plain. -/
theorem isPlain_configuredRoot {path : SourcePath}
    (configured : configuredRoot? path.normalize = some root) : root.IsPlain := by
  rw [configuredRoot?] at configured
  split at configured
  · exact SourcePath.isPlain_parent_normalize configured
  · cases configured

/-- The roots that a change makes the registry reconfigure. -/
def reconfiguredBy (change : FileChange) (registry : Registry σ) : List SourcePath :=
  match change.kind with
  | .file => (configuredRoot? change.path.normalize).toList
  | .directory => registry.rootsUnder change.path.normalize

/-- Of the roots of the registry those are reconfigured that the change concerns. -/
theorem mem_reconfiguredBy_iff {change : FileChange} (known : root ∈ registry.projects.keys) :
    root ∈ registry.reconfiguredBy change ↔ change.concerns root = true := by
  unfold reconfiguredBy FileChange.concerns
  cases change.kind with
  | file => simp [eq_comm]
  | directory => simp [rootsUnder, known]

theorem WellFormed.plain_of_mem_reconfiguredBy (wellFormed : registry.WellFormed)
    {change : FileChange} (member : root ∈ registry.reconfiguredBy change) : root.IsPlain := by
  unfold reconfiguredBy at member
  split at member
  · exact isPlain_configuredRoot (Option.mem_toList.mp member)
  · exact wellFormed.plain_of_mem_keys (List.mem_of_mem_filter member)

theorem WellFormed.nodup_reconfiguredBy (wellFormed : registry.WellFormed)
    (change : FileChange) : (registry.reconfiguredBy change).Nodup := by
  unfold reconfiguredBy
  cases change.kind with
  | file => cases configuredRoot? change.path.normalize <;> simp
  | directory => exact wellFormed.nodup_keys.filter _

/-- There is a project to reconfigure exactly if the change concerns the root of one. -/
theorem any_reconfiguredBy (wellFormed : registry.WellFormed) (change : FileChange) :
    (registry.reconfiguredBy change).any registry.projects.contains =
      registry.projects.keys.any change.concerns := by
  rw [Bool.eq_iff_iff, List.any_eq_true, List.any_eq_true]
  constructor
  · rintro ⟨root, there, contained⟩
    rw [contains_eq_any_keys, List.any_eq_true] at contained
    obtain ⟨key, known, same⟩ := contained
    have equal := (wellFormed.plain_of_mem_keys known).eq_of_components
      (wellFormed.plain_of_mem_reconfiguredBy there) (by simpa using same)
    exact ⟨key, known, (mem_reconfiguredBy_iff known).mp (equal ▸ there)⟩
  · rintro ⟨key, known, concerned⟩
    refine ⟨key, (mem_reconfiguredBy_iff known).mpr concerned, ?_⟩
    rw [contains_eq_any_keys, List.any_eq_true]
    exact ⟨key, known, by simp⟩

/-- Reconfiguration renews the projects that the change concerns, and says whether there are
any. -/
theorem reconfiguredBy_value (wellFormed : registry.WellFormed) (change : FileChange) :
    (registry.reconfigureAll (Backend.overStore store engine)
        (registry.reconfiguredBy change)).value =
      (registry.projects.keys.any change.concerns,
        registry.mapProjects fun root project =>
          if change.concerns root then project.renewed store root else project) := by
  rw [reconfigureAll_value wellFormed (fun _ => wellFormed.plain_of_mem_reconfiguredBy)
    (wellFormed.nodup_reconfiguredBy change), any_reconfiguredBy wellFormed]
  congr 1
  refine mapProjects_congr fun entry there => ?_
  have known : entry.1 ∈ registry.projects.keys := List.mem_map_of_mem there
  simp only [mem_reconfiguredBy_iff known]

/-- Every project absorbs a change by itself, and the change is processed if it affects
any. -/
theorem apply_value (wellFormed : registry.WellFormed) (change : FileChange) :
    (registry.apply (Backend.overStore store engine) change).value =
      (registry.projects.entries.any fun entry => entry.2.isAffected store change entry.1,
        registry.mapProjects fun root project => project.absorb store change root) := by
  have shape : (registry.apply (Backend.overStore store engine) change).value =
      let first := (registry.reconfigureAll (Backend.overStore store engine)
        (registry.reconfiguredBy change)).value
      let second := (first.2.onHosts (Host.noticed store change)).value
      (first.1 || second.1, second.2) := by
    unfold apply reconfiguredBy Host.noticed
    cases change.kind <;> rfl
  rw [shape, reconfiguredBy_value wellFormed]
  simp only [onHosts_value, mapProjects_mapProjects]
  refine Prod.ext ?_ rfl
  rw [Bool.eq_iff_iff]
  simp only [Bool.or_eq_true, List.any_eq_true, mapProjects, PathMap.keys, List.mem_map,
    Project.isAffected]
  -- A project that is renewed is affected, and any other one is noticed as it was.
  constructor
  · rintro (⟨_, ⟨entry, member, rfl⟩, concerned⟩ | ⟨_, ⟨entry, member, rfl⟩, noticed⟩)
    · exact ⟨entry, member, .inl concerned⟩
    · by_cases concerned : change.concerns entry.1 = true
      · exact ⟨entry, member, .inl concerned⟩
      · rw [if_neg concerned] at noticed
        exact ⟨entry, member, .inr noticed⟩
  · rintro ⟨entry, member, affected⟩
    by_cases concerned : change.concerns entry.1 = true
    · exact .inl ⟨_, ⟨entry, member, rfl⟩, concerned⟩
    · refine .inr ⟨_, ⟨entry, member, rfl⟩, ?_⟩
      rw [if_neg concerned]
      exact affected.resolve_left concerned

/-- Every project absorbs a batch by itself. The batch is processed if one of its changes
affects a project as it was before the batch. -/
theorem applyAll_value (wellFormed : registry.WellFormed) (changes : List FileChange) :
    (registry.applyAll (Backend.overStore store engine) changes).value =
      (changes.any fun change =>
          registry.projects.entries.any fun entry => entry.2.isAffected store change entry.1,
        registry.mapProjects fun root project => project.absorbAll store changes root) := by
  induction changes generalizing registry with
  | nil =>
      rw [mapProjects_eq_self fun _ _ => rfl]
      rfl
  | cons change rest inductionHypothesis =>
      simp only [applyAll, Traced.value_bind, Traced.value_pure, apply_value wellFormed,
        inductionHypothesis (wellFormed.mapProjects _), mapProjects_mapProjects, List.any_cons]
      refine Prod.ext ?_ rfl
      cases affected : registry.projects.entries.any fun entry =>
          entry.2.isAffected store change entry.1 with
      | true => rfl
      | false =>
          have unaffected := List.any_eq_false.mp affected
          rw [mapProjects_eq_self fun entry member =>
            Project.absorb_eq_self (by simpa using unaffected entry member)]

end Registry

end ScriptAnalysis
