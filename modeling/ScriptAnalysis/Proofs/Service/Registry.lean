import ScriptAnalysis.Proofs.Path.Map
import ScriptAnalysis.Proofs.Path.Spelling
import ScriptAnalysis.Service.Requests

/-!
# Registries entry by entry

The projects of a registry stand in ascending order under plain roots (`WellFormed`), so a
root has one project and one spelling. On such a registry a change acts on every entry
by itself (`mapProjects`), and a request replaces the entry of its root only. Resolving a root
anew is first described for any way to resolve it, which may fail, and then for a store.
-/

namespace ScriptAnalysis

variable {σ α : Type}

/-- The project with the configuration that the store holds for its root now. -/
def Project.renewed (store : SourceStore) (root : SourcePath) (project : Project σ) : Project σ :=
  (project.reconfigure store (resolveProject store root).value).value

/-- The project after its root was resolved once more; if that fails it stays as it is. -/
def Project.resolvedAgain (backend : Backend σ) (root : SourcePath) (project : Project σ) :
    Project σ :=
  match (backend.resolve root).value with
  | .error _ => project
  | .ok resolved => (project.reconfigure backend.store resolved).value

/-- The project at a key after several roots were resolved once more. -/
def Project.resolvedInTurn (backend : Backend σ) (key : SourcePath) (roots : List SourcePath)
    (project : Project σ) : Project σ :=
  roots.foldl (fun current root =>
    if key.components = root.components then current.resolvedAgain backend root
    else current) project

namespace Registry

variable {registry : Registry σ} {root : SourcePath} {project : Project σ}

/-- Roots are in ascending order and written plainly. -/
structure WellFormed (registry : Registry σ) : Prop where
  ascending : registry.projects.Ascending
  plain : ∀ entry ∈ registry.projects.entries, entry.1.IsPlain

theorem wellFormed_empty (options : HostOptions) : (empty options : Registry σ).WellFormed where
  ascending := PathMap.ascending_empty
  plain entry member := by cases member

namespace WellFormed

/-- A plain root has the project that is entered under it. -/
theorem find?_iff (wellFormed : registry.WellFormed) (plain : root.IsPlain) :
    registry.projects.find? root = some project ↔ (root, project) ∈ registry.projects.entries := by
  constructor
  · intro found
    obtain ⟨key, member, same⟩ := PathMap.mem_of_find? found
    rwa [← (wellFormed.plain _ member).eq_of_components plain same]
  · intro member
    exact wellFormed.ascending.find?_of_mem member rfl

theorem insert (wellFormed : registry.WellFormed) (plain : root.IsPlain) (project : Project σ) :
    (registry.insert root project).WellFormed where
  ascending := wellFormed.ascending.insert root project
  plain entry member := by
    rcases PathMap.mem_insertEntry member with ⟨_, spelled | ⟨old, there, _⟩⟩ | there
    · rwa [spelled]
    · exact wellFormed.plain (entry.1, old) there
    · exact wellFormed.plain entry there

/-- Putting a project under a root replaces the entry of that root only. -/
theorem mem_insert_iff (wellFormed : registry.WellFormed) (plain : root.IsPlain)
    {entry : SourcePath × Project σ} :
    entry ∈ (registry.insert root project).projects.entries ↔
      if entry.1 = root then entry.2 = project else entry ∈ registry.projects.entries := by
  obtain ⟨key, value⟩ := entry
  have after := wellFormed.insert plain project
  by_cases plainKey : key.IsPlain
  · rw [← after.find?_iff plainKey, ← wellFormed.find?_iff plainKey, Registry.insert,
      PathMap.find?_insert]
    by_cases same : key = root
    · rw [if_pos (congrArg _ same.symm), if_pos same, Option.some_inj, eq_comm]
    · rw [if_neg same, if_neg fun components =>
        same (plainKey.eq_of_components plain components.symm)]
  · have differ : key ≠ root := fun same => plainKey (same ▸ plain)
    rw [if_neg differ]
    exact iff_of_false (fun member => plainKey (after.plain _ member))
      fun member => plainKey (wellFormed.plain _ member)

end WellFormed

/-- Replace every project by one for the same root. -/
def mapProjects (replace : SourcePath → Project σ → Project σ) (registry : Registry σ) :
    Registry σ :=
  { registry with
    projects := ⟨registry.projects.entries.map fun entry => (entry.1, replace entry.1 entry.2)⟩ }

theorem mapProjects_congr {left right : SourcePath → Project σ → Project σ}
    (same : ∀ entry ∈ registry.projects.entries, left entry.1 entry.2 = right entry.1 entry.2) :
    registry.mapProjects left = registry.mapProjects right := by
  rw [mapProjects, mapProjects]
  congr 2
  exact List.map_congr_left fun entry member => by rw [same entry member]

/-- Replacing every project by itself changes nothing. -/
theorem mapProjects_eq_self {replace : SourcePath → Project σ → Project σ}
    (same : ∀ entry ∈ registry.projects.entries, replace entry.1 entry.2 = entry.2) :
    registry.mapProjects replace = registry := by
  have still : registry.mapProjects replace = registry.mapProjects fun _ project => project :=
    mapProjects_congr same
  rw [still]
  simp [mapProjects]

@[simp]
theorem mapProjects_mapProjects (first second : SourcePath → Project σ → Project σ)
    (registry : Registry σ) :
    (registry.mapProjects first).mapProjects second =
      registry.mapProjects fun root project => second root (first root project) := by
  simp [mapProjects]

@[simp]
theorem keys_mapProjects (replace : SourcePath → Project σ → Project σ) (registry : Registry σ) :
    (registry.mapProjects replace).projects.keys = registry.projects.keys := by
  simp [mapProjects, PathMap.keys]

theorem contains_eq_any_keys (map : PathMap α) (path : SourcePath) :
    map.contains path = map.keys.any fun key => key.components == path.components := by
  simp [PathMap.contains, PathMap.keys, List.any_map, Function.comp_def]

@[simp]
theorem contains_mapProjects (replace : SourcePath → Project σ → Project σ)
    (registry : Registry σ) :
    (registry.mapProjects replace).projects.contains = registry.projects.contains := by
  funext path
  rw [contains_eq_any_keys, contains_eq_any_keys, keys_mapProjects]

theorem mem_mapProjects {replace : SourcePath → Project σ → Project σ}
    {entry : SourcePath × Project σ} :
    entry ∈ (registry.mapProjects replace).projects.entries ↔
      ∃ old, (entry.1, old) ∈ registry.projects.entries ∧ entry.2 = replace entry.1 old := by
  obtain ⟨root, project⟩ := entry
  rw [mapProjects, List.mem_map]
  constructor
  · rintro ⟨⟨key, old⟩, member, same⟩
    cases same
    exact ⟨old, member, rfl⟩
  · rintro ⟨old, member, same⟩
    exact ⟨(root, old), member, Prod.ext rfl same.symm⟩

theorem WellFormed.mapProjects (wellFormed : registry.WellFormed)
    (replace : SourcePath → Project σ → Project σ) : (registry.mapProjects replace).WellFormed where
  ascending := List.pairwise_map.mpr wellFormed.ascending
  plain entry member := by
    obtain ⟨old, there, _⟩ := mem_mapProjects.mp member
    exact wellFormed.plain (entry.1, old) there

/-- Setting the project of a root that has one replaces that project and no other. -/
theorem insert_eq_mapProjects (ascending : registry.projects.Ascending)
    (found : registry.projects.find? root = some project) (change : Project σ → Project σ) :
    registry.insert root (change project) =
      registry.mapProjects fun key other =>
        if key.components = root.components then change other else other := by
  have replaced := ascending.entries_insert (by rw [found]; rfl) (change project)
  refine congrArg (Registry.mk · registry.options) (congrArg PathMap.mk (replaced.trans ?_))
  refine List.map_congr_left fun entry member => ?_
  by_cases same : entry.1.components = root.components
  · rw [ascending.find?_of_mem member same, Option.some_inj] at found
    simp only [if_pos same, found]
  · simp only [if_neg same]

/-- Putting a project where it is changes nothing. -/
theorem insert_eq_self (ascending : registry.projects.Ascending)
    (found : registry.projects.find? root = some project) :
    registry.insert root project = registry :=
  (insert_eq_mapProjects ascending found id).trans (mapProjects_eq_self fun _ _ => ite_self _)

/-- Reconfiguring a root resolves it anew for its project, under whatever spelling, and tells
whether there is a project and the root could be resolved. -/
theorem reconfigure_outcome (ascending : registry.projects.Ascending) (backend : Backend σ)
    (root : SourcePath) :
    (registry.reconfigure backend root).value =
      (registry.projects.contains root && (backend.resolve root).value.isOk,
        registry.mapProjects fun key project =>
          if key.components = root.components then project.resolvedAgain backend root
          else project) := by
  rw [PathMap.contains_eq_isSome]
  cases found : registry.projects.find? root with
  | none =>
      have others : ∀ entry ∈ registry.projects.entries,
          entry.1.components ≠ root.components := by
        intro entry member same
        rw [ascending.find?_of_mem member same] at found
        cases found
      rw [mapProjects_eq_self fun entry member => if_neg (others entry member), reconfigure, found]
      rfl
  | some project =>
      rw [← insert_eq_mapProjects ascending found (Project.resolvedAgain backend root),
        reconfigure, found]
      simp only [Traced.value_bind, Project.resolvedAgain]
      cases (backend.resolve root).value with
      | error error => exact congrArg (Prod.mk false) (insert_eq_self ascending found).symm
      | ok resolved => rfl

/-- Reconfiguring several roots resolves each of them anew in turn. -/
theorem reconfigureAll_outcome (ascending : registry.projects.Ascending) (backend : Backend σ)
    (roots : List SourcePath) :
    (registry.reconfigureAll backend roots).value =
      (roots.any fun root =>
          registry.projects.contains root && (backend.resolve root).value.isOk,
        registry.mapProjects fun key project => project.resolvedInTurn backend key roots) := by
  induction roots generalizing registry with
  | nil =>
      rw [mapProjects_eq_self fun _ _ => rfl]
      rfl
  | cons root rest inductionHypothesis =>
      have kept : ∀ replace, (registry.mapProjects replace).projects.Ascending :=
        fun _ => List.pairwise_map.mpr ascending
      simp only [reconfigureAll, Traced.value_bind, Traced.value_pure,
        reconfigure_outcome ascending, inductionHypothesis (kept _), contains_mapProjects,
        mapProjects_mapProjects, List.any_cons]
      rfl

variable {store : SourceStore} {engine : Engine σ}

/-- Reconfiguring a plain root renews its project, if it has one. -/
theorem reconfigure_value (wellFormed : registry.WellFormed) (plain : root.IsPlain) :
    (registry.reconfigure (Backend.overStore store engine) root).value =
      (registry.projects.contains root,
        registry.mapProjects fun key project =>
          if key = root then project.renewed store key else project) := by
  have renews : (registry.mapProjects fun key project =>
      if key.components = root.components then
        project.resolvedAgain (Backend.overStore store engine) root else project) =
      registry.mapProjects fun key project =>
        if key = root then project.renewed store key else project := by
    refine mapProjects_congr fun entry member => ?_
    have places := (wellFormed.plain entry member).eq_of_components plain
    by_cases same : entry.1 = root
    · rw [if_pos same, if_pos (congrArg _ same), same]
      rfl
    · rw [if_neg same, if_neg (mt places same)]
  rw [reconfigure_outcome wellFormed.ascending, renews]
  exact congrArg (·, _) (Bool.and_true _)

/-- Reconfiguring different plain roots renews the projects that they have. -/
theorem reconfigureAll_value {roots : List SourcePath} (wellFormed : registry.WellFormed)
    (plain : ∀ root ∈ roots, root.IsPlain) (different : roots.Nodup) :
    (registry.reconfigureAll (Backend.overStore store engine) roots).value =
      (roots.any registry.projects.contains,
        registry.mapProjects fun key project =>
          if key ∈ roots then project.renewed store key else project) := by
  induction roots generalizing registry with
  | nil =>
      rw [mapProjects_eq_self fun entry _ => if_neg List.not_mem_nil]
      rfl
  | cons root rest inductionHypothesis =>
      obtain ⟨fresh, others⟩ := List.nodup_cons.mp different
      simp only [reconfigureAll, Traced.value_bind, Traced.value_pure,
        reconfigure_value wellFormed (plain root List.mem_cons_self)]
      rw [inductionHypothesis (wellFormed.mapProjects _)
        (fun other member => plain other (List.mem_cons_of_mem root member)) others]
      simp only [contains_mapProjects, mapProjects_mapProjects, List.any_cons]
      refine congrArg (Prod.mk _) (mapProjects_congr fun entry _ => ?_)
      by_cases same : entry.1 = root
      · simp [same, fresh]
      · simp [same]

/-- Visiting acts on every host by itself. -/
theorem visit_value (operation : Host → Traced (Bool × Host))
    (entries : List (SourcePath × Project σ)) :
    (visit operation entries).value =
      (entries.any fun entry => (operation entry.2.host).value.1,
        entries.map fun entry =>
          (entry.1, { entry.2 with host := (operation entry.2.host).value.2 })) := by
  induction entries with
  | nil => rfl
  | cons entry rest inductionHypothesis =>
      obtain ⟨root, project⟩ := entry
      simp only [visit, Traced.value_bind, Traced.value_pure, inductionHypothesis]
      rfl

theorem onHosts_value (operation : Host → Traced (Bool × Host)) (registry : Registry σ) :
    (registry.onHosts operation).value =
      (registry.projects.entries.any fun entry => (operation entry.2.host).value.1,
        registry.mapProjects fun _ project =>
          { project with host := (operation project.host).value.2 }) := by
  simp only [onHosts, Traced.value_bind, Traced.value_pure, visit_value]
  rfl

/-- A diagnostics request acts on the project of its root; a failure leaves only an event. -/
theorem diagnostics_eq_onProject (backend : Backend σ) (root file : SourcePath) (code : String)
    (registry : Registry σ) :
    (registry.diagnostics backend root file code).value =
      (registry.onProject backend root
        (Project.diagnostics backend.store backend.engine file.normalize code)).value := by
  rw [diagnostics, Traced.value_bind]
  split
  next answer next same =>
    refine Eq.trans ?_ same.symm
    cases answer <;> rfl

/-- So does a completion request. -/
theorem completions_eq_onProject (backend : Backend σ) (root file : SourcePath) (code : String)
    (offset : Nat) (registry : Registry σ) :
    (registry.completions backend root file code offset).value =
      (registry.onProject backend root
        (Project.completions backend.store backend.engine file.normalize code offset)).value := by
  rw [completions, Traced.value_bind]
  split
  next answer next same =>
    refine Eq.trans ?_ same.symm
    cases answer <;> rfl

end Registry

end ScriptAnalysis
