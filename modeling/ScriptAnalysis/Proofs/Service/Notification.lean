import ScriptAnalysis.Engine.Prepared
import ScriptAnalysis.Proofs.Service.Reachable
import ScriptAnalysis.Store.Tree

/-!
# Notifications

What a notification does is settled by the set of its changes: neither their order nor their
repetition shows in the answer or in any project. A changed file is read under its plain
path, and a tracked file below a changed directory under the path by which it is tracked. So it is
enough that the store reads the tracked paths like the plain ones, as every store does that
reads all spellings of a place alike, or that the engine names files plainly. Where a store
tells two spellings of a tracked file apart, the order shows
(`Registry.notify_disagrees_of_two_spellings`).
-/

namespace ScriptAnalysis

variable {σ : Type} {store : SourceStore} {engine : Engine σ}

theorem Project.Every.readsTracked {texts : String → Prop} {project : Project σ}
    (every : project.Every (SnapshotCache.IsCapture texts)) : project.ReadsTracked store := by
  rw [Project.ReadsTracked, SnapshotCache.readsTracked_iff_every]
  exact SnapshotCache.Every.imp every fun key snapshot capture => by rw [capture.plain]

namespace Registry

variable {registry : Registry σ}

theorem WellFormed.find?_mapProjects (wellFormed : registry.WellFormed)
    (replace : SourcePath → Project σ → Project σ) (root : SourcePath) :
    (registry.mapProjects replace).find? root =
      (registry.find? root).map (replace root.normalize) := by
  have plain := root.isPlain_normalize
  refine Option.ext fun project => ?_
  rw [find?, find?, (wellFormed.mapProjects replace).find?_iff plain, mem_mapProjects,
    Option.map_eq_some_iff]
  simp only [wellFormed.find?_iff plain, eq_comm]

/-- Two registries with the same roots whose projects agree. -/
structure Agrees (left right : Registry σ) : Prop where
  options : left.options = right.options
  roots : left.projects.keys = right.projects.keys
  projects : ∀ root, Option.Rel Project.Agrees (left.find? root) (right.find? root)

/-- In every project the store reads what is tracked as it reads the plain spelling. -/
def ReadsTracked (store : SourceStore) (registry : Registry σ) : Prop :=
  ∀ entry ∈ registry.projects.entries, entry.2.ReadsTracked store

theorem readsTracked_of_readsPlaces (places : store.ReadsPlaces) (registry : Registry σ) :
    registry.ReadsTracked store :=
  fun _ _ key _ => places.held_congr key.components_plain.symm

theorem Reachable.readsTracked (names : engine.NamesPlainly)
    (reachable : Reachable engine registry) : registry.ReadsTracked store :=
  fun entry member => (reachable.every_isCapture names entry member).readsTracked

/-- The snapshot of a file in the project of a root. -/
def snapshot? (registry : Registry σ) (root path : SourcePath) : Option Snapshot :=
  (registry.find? root).bind fun project => project.snapshot? path

/-- Registries that agree look alike to whatever cannot tell their projects apart. -/
theorem Agrees.bind_eq {α : Type} {left right : Registry σ} (agrees : left.Agrees right)
    {root : SourcePath} {look : Project σ → Option α}
    (alike : ∀ {project other}, left.find? root = some project → right.find? root = some other →
      project.Agrees other → look project = look other) :
    (left.find? root).bind look = (right.find? root).bind look := by
  have related := agrees.projects root
  revert related alike
  generalize left.find? root = found
  generalize right.find? root = others
  intro alike related
  cases related with
  | none => rfl
  | some same => exact alike rfl rfl same

/-- Registries that agree have the same texts. -/
theorem Agrees.text?_eq {left right : Registry σ} (agrees : left.Agrees right)
    (root path : SourcePath) :
    (left.snapshot? root path).map Snapshot.text =
      (right.snapshot? root path).map Snapshot.text := by
  rw [snapshot?, snapshot?, Option.map_bind, Option.map_bind]
  refine agrees.bind_eq fun {project other} _ _ same => ?_
  have contents : (project.snapshot? path).map Snapshot.content =
      (other.snapshot? path).map Snapshot.content := same.contents path
  have texts := congrArg (Option.map Content.text) contents
  rwa [Option.map_map, Option.map_map] at texts

/-- Reachable registries that agree have the same snapshots if the engine names files plainly. -/
theorem Agrees.snapshot?_eq {left right : Registry σ} (agrees : left.Agrees right)
    (names : engine.NamesPlainly) (leftReachable : Reachable engine left)
    (rightReachable : Reachable engine right) (root path : SourcePath) :
    left.snapshot? root path = right.snapshot? root path := by
  have captures : ∀ {registry : Registry σ}, Reachable engine registry → ∀ {project},
      registry.find? root = some project →
        project.Every (SnapshotCache.IsCapture fun _ => True) :=
    fun reachable _ found => reachable.every_isCapture names _
      ((reachable.wellFormed.find?_iff root.isPlain_normalize).mp found)
  exact agrees.bind_eq fun foundLeft foundRight same =>
    same.snapshot?_eq (captures leftReachable foundLeft) (captures rightReachable foundRight) path

/-- Notifications with the same set of changes give the same answer and leave registries that
agree, from every reachable registry, if the store reads what is tracked as it reads the plain
spellings or the engine names files plainly. With such an engine they leave the same snapshots. -/
theorem notify_agrees_of_same_changes
    (spelled : registry.ReadsTracked store ∨ engine.NamesPlainly)
    (reachable : Reachable engine registry) (left right : FileChangeNotification)
    (same : ∀ change, change ∈ left.changes ↔ change ∈ right.changes) :
    let leftOutcome := (registry.notify (Backend.overStore store engine) left).value
    let rightOutcome := (registry.notify (Backend.overStore store engine) right).value
    leftOutcome.1 = rightOutcome.1 ∧ leftOutcome.2.Agrees rightOutcome.2 ∧
      (engine.NamesPlainly → ∀ root path,
        leftOutcome.2.snapshot? root path = rightOutcome.2.snapshot? root path) := by
  intro leftOutcome rightOutcome
  have wellFormed := reachable.wellFormed
  have reads : registry.ReadsTracked store := spelled.elim id reachable.readsTracked
  have agree : leftOutcome.1 = rightOutcome.1 ∧ leftOutcome.2.Agrees rightOutcome.2 := by
    simp only [leftOutcome, rightOutcome, notify_value wellFormed]
    refine ⟨Project.any_eq_any_of_same same _, rfl, ?_, fun root => ?_⟩
    · rw [keys_mapProjects, keys_mapProjects]
    · rw [wellFormed.find?_mapProjects, wellFormed.find?_mapProjects]
      cases found : registry.find? root with
      | none => exact .none
      | some project =>
          have member := (wellFormed.find?_iff root.isPlain_normalize).mp found
          exact .some (Project.absorbAll_agrees (reads _ member) same root.normalize)
  exact ⟨agree.1, agree.2, fun names root path =>
    agree.2.snapshot?_eq names (.notify reachable store left) (.notify reachable store right) root
      path⟩

/-- A file and the directory above it change together while a pushed text is cached. -/
theorem notify_agrees_of_swapped_changes :
    let registry := ((empty ⟨true, ⟨"/lib"⟩⟩).diagnostics
      (Backend.overStore (Tree.empty.writeFile ⟨"/p/a.ts"⟩ "old(").store DelimiterEngine.engine)
      ⟨"/p"⟩ ⟨"/p/a.ts"⟩ "pushed(").value.2
    let store := (Tree.empty.writeFile ⟨"/p/a.ts"⟩ "new(").store
    let backend := Backend.overStore store DelimiterEngine.engine
    let left := (registry.notify backend ⟨[⟨.file, ⟨"/p/a.ts"⟩⟩, ⟨.directory, ⟨"/p"⟩⟩]⟩).value
    let right := (registry.notify backend
      ⟨[⟨.directory, ⟨"/p"⟩⟩, ⟨.file, ⟨"/p/a.ts"⟩⟩, ⟨.directory, ⟨"/p"⟩⟩]⟩).value
    left.1 = right.1 ∧ left.2.Agrees right.2 ∧
      ∀ root path, left.2.snapshot? root path = right.2.snapshot? root path :=
  And.imp_right (And.imp_right fun snapshots => snapshots DelimiterEngine.namesPlainly)
    (notify_agrees_of_same_changes
      (.inl (readsTracked_of_readsPlaces (Tree.readsPlaces _) _))
      (.diagnostics (.empty ⟨true, ⟨"/lib"⟩⟩) _ ⟨"/p"⟩ ⟨"/p/a.ts"⟩ "pushed(") _ _ (by
        intro change
        simp only [List.mem_cons, List.not_mem_nil, or_false]
        tauto))

/-- A finding of an engine is located in a file under a spelling that is not plain. Over a store
that tells this spelling from the plain one, the text of the file is the one under the plain
spelling if the file changes after the directory above it, and otherwise the one under the other.
Over trees the text is the same, but the path inside the snapshot shows which came first. -/
theorem notify_disagrees_of_two_spellings :
    let engine := PreparedAnswers.engine
      { PreparedAnswers.empty with
        declaration := .answer [⟨1, .single "located", some ⟨⟨"/p//a.ts"⟩, 0⟩⟩] }
    let registry (store : SourceStore) := ((empty .standard).diagnostics
      (Backend.overStore store engine) ⟨"/p"⟩ ⟨"/p/b.ts"⟩ "let b;").value.2
    let outcome (earlier later : SourceStore) (changes : List FileChange) :=
      ((registry earlier).notify (Backend.overStore later engine) ⟨changes⟩).value.2
    let changes : List FileChange := [⟨.file, ⟨"/p/a.ts"⟩⟩, ⟨.directory, ⟨"/p"⟩⟩]
    let telling : SourceStore :=
      { Tree.empty.store with
        read := fun path =>
          if path.text = "/p/a.ts" then .found "plain"
          else if path.text = "/p//a.ts" then .found "other"
          else .absent }
    let old := (Tree.empty.writeFile ⟨"/p/a.ts"⟩ "old").store
    let new := (Tree.empty.writeFile ⟨"/p/a.ts"⟩ "new").store
    let look (registry : Registry Unit) := registry.snapshot? ⟨"/p"⟩ ⟨"/p/a.ts"⟩
    (∀ store, Reachable engine (registry store)) ∧
      (∀ change, change ∈ changes ↔ change ∈ changes.reverse) ∧
      (look (outcome telling telling changes)).map Snapshot.text = some "other" ∧
      (look (outcome telling telling changes.reverse)).map Snapshot.text = some "plain" ∧
      ¬ (outcome telling telling changes).Agrees (outcome telling telling changes.reverse) ∧
      (look (outcome old new changes)).map Snapshot.path = some ⟨"/p/a.ts"⟩ ∧
      (look (outcome old new changes.reverse)).map Snapshot.path = some ⟨"/p//a.ts"⟩ := by
  intro engine registry outcome changes telling old new look
  have other : (look (outcome telling telling changes)).map Snapshot.text = some "other" := by
    decide +kernel
  have plain : (look (outcome telling telling changes.reverse)).map Snapshot.text =
      some "plain" := by
    decide +kernel
  refine ⟨fun store => .diagnostics (.empty .standard) store ⟨"/p"⟩ ⟨"/p/b.ts"⟩ "let b;",
    fun change => List.mem_reverse.symm, other, plain, fun agrees => ?_, by decide +kernel,
    by decide +kernel⟩
  have texts : some "other" = some "plain" :=
    other.symm.trans ((agrees.text?_eq ⟨"/p"⟩ ⟨"/p/a.ts"⟩).trans plain)
  exact absurd texts (by decide)

end Registry

end ScriptAnalysis
