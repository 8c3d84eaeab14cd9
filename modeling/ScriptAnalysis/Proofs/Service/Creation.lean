import ScriptAnalysis.Engine.Delimiter
import ScriptAnalysis.Proofs.Cache.Exploration
import ScriptAnalysis.Proofs.Service.Registry

/-!
# Where engines are built

The trace tells of every engine that is built and for which root (`Event.builtFor`). Nothing that
caches, hosts, projects and registries do builds one (`Traced.BuildsNone`), except that a registry
does when it creates a project. What engines and resolvers note themselves is not known here, so
for them it is a condition.
-/

namespace ScriptAnalysis

variable {σ α β : Type}

namespace Event

/-- The root for which an engine was built, if the event tells of one. -/
def builtFor? : Event → Option SourcePath
  | .createdEngine root => some root
  | _ => none

/-- The roots for which engines were built, one after the other. -/
def builtFor (events : List Event) : List SourcePath :=
  events.filterMap builtFor?

theorem builtFor_append (left right : List Event) :
    builtFor (left ++ right) = builtFor left ++ builtFor right :=
  List.filterMap_append

end Event

namespace Traced

/-- No engine is built on the way. -/
def BuildsNone (computation : Traced α) : Prop :=
  Event.builtFor computation.events = []

theorem buildsNone_pure (value : α) : (pure value : Traced α).BuildsNone := rfl

theorem buildsNone_note {event : Event} (other : event.builtFor? = none) :
    (note event).BuildsNone := by
  rw [BuildsNone, events_note, Event.builtFor, List.filterMap_cons_none other, List.filterMap_nil]

theorem BuildsNone.bind {first : Traced α} {next : α → Traced β} (before : first.BuildsNone)
    (after : (next first.value).BuildsNone) : (first >>= next).BuildsNone := by
  rw [BuildsNone, events_bind, Event.builtFor_append, before, after, List.append_nil]

theorem BuildsNone.mapState {step : α → σ → Traced (β × σ)} (each : ∀ item state,
    (step item state).BuildsNone) (items : List α) (state : σ) :
    (mapState step items state).BuildsNone := by
  refine List.filterMap_eq_nil_iff.mpr fun event member => ?_
  obtain ⟨item, state, inside⟩ := mem_events_mapState member
  exact List.filterMap_eq_nil_iff.mp (each item state) event inside

end Traced

open Traced

variable {store : SourceStore}

namespace SourceStore

theorem buildsNone_readText (store : SourceStore) (path : SourcePath) :
    (store.readText path).BuildsNone := by
  rw [readText]
  split <;> rfl

theorem buildsNone_readNonEmpty (store : SourceStore) (path : SourcePath) :
    (store.readNonEmpty path).BuildsNone :=
  (store.buildsNone_readText path).bind (buildsNone_pure _)

end SourceStore

namespace SnapshotCache

variable (store) (path : SourcePath) (cache : SnapshotCache)

theorem buildsNone_refresh : (cache.refresh store path).BuildsNone := by
  refine (store.buildsNone_readNonEmpty path).bind ?_
  split
  · exact buildsNone_pure _
  · dsimp only
    split
    · exact (buildsNone_note rfl).bind (buildsNone_pure _)
    · exact buildsNone_pure _

theorem buildsNone_setContent (text : String) : (cache.setContent store path text).BuildsNone := by
  rw [setContent]
  split
  · exact buildsNone_refresh store path cache
  · exact buildsNone_pure _

theorem buildsNone_fileChanged : (cache.fileChanged store path).BuildsNone := by
  rw [fileChanged]
  split
  · exact (buildsNone_refresh store path cache).bind (buildsNone_pure _)
  · exact buildsNone_pure _

theorem buildsNone_refreshAll (paths : List SourcePath) :
    (refreshAll store paths cache).BuildsNone := by
  induction paths generalizing cache with
  | nil => exact buildsNone_pure _
  | cons path rest inductionHypothesis =>
      exact (buildsNone_refresh store path cache).bind (inductionHypothesis _)

theorem buildsNone_snapshot : (cache.snapshot store path).BuildsNone := by
  rw [snapshot]
  split
  · exact buildsNone_pure _
  · exact buildsNone_refresh store path cache

end SnapshotCache

namespace DirectoryCache

theorem buildsNone_explore (store : SourceStore) (depth : Nat) (path : SourcePath)
    (cache : DirectoryCache) : (explore store depth path cache).BuildsNone := by
  refine List.filterMap_eq_nil_iff.mpr fun event member => ?_
  rcases mem_events_explore member with ⟨_, rfl⟩ | ⟨_, _, rfl⟩ <;> rfl

end DirectoryCache

namespace Host

variable {host : Host}

theorem buildsNone_onSnapshots {operation : SnapshotCache → Traced (α × SnapshotCache)}
    (quiet : (operation host.cache.snapshots).BuildsNone) :
    (host.onCache fun cache => cache.onSnapshots operation).BuildsNone :=
  (quiet.bind (buildsNone_pure _)).bind (buildsNone_pure _)

theorem buildsNone_onDirectories {operation : DirectoryCache → Traced (α × DirectoryCache)}
    (quiet : (operation host.cache.directories).BuildsNone) :
    (host.onCache fun cache => cache.onDirectories operation).BuildsNone :=
  (quiet.bind (buildsNone_pure _)).bind (buildsNone_pure _)

theorem buildsNone_snapshot (store : SourceStore) (path : SourcePath) (host : Host) :
    (host.snapshot store path).BuildsNone :=
  buildsNone_onSnapshots (SnapshotCache.buildsNone_snapshot store path _)

theorem buildsNone_setContent (store : SourceStore) (path : SourcePath) (text : String)
    (host : Host) : (host.setContent store path text).BuildsNone :=
  (buildsNone_onSnapshots (SnapshotCache.buildsNone_setContent store path _ text)).bind
    (buildsNone_pure _)

theorem buildsNone_preload (store : SourceStore) (files : List SourcePath) (host : Host) :
    (host.preload store files).BuildsNone := by
  induction files generalizing host with
  | nil => exact buildsNone_pure _
  | cons file rest inductionHypothesis =>
      exact (host.buildsNone_snapshot store file).bind
        ((inductionHypothesis _).bind (buildsNone_pure _))

theorem buildsNone_fileChanged (store : SourceStore) (path : SourcePath) (host : Host) :
    (host.fileChanged store path).BuildsNone := by
  refine .bind (.bind (.bind ?_ (buildsNone_pure _)) ?_) (buildsNone_pure _)
  · exact SnapshotCache.buildsNone_fileChanged store path _
  · exact .bind (buildsNone_note rfl) (buildsNone_pure _)

theorem buildsNone_directoryChanged (store : SourceStore) (directory : SourcePath) (host : Host) :
    (host.directoryChanged store directory).BuildsNone := by
  refine .bind (.bind (.bind ?_ (buildsNone_pure _)) ?_) (buildsNone_pure _)
  · exact .bind (SnapshotCache.buildsNone_refreshAll store _ _) (buildsNone_pure _)
  · exact .bind (buildsNone_note rfl) (buildsNone_pure _)

theorem buildsNone_answer (store : SourceStore) (host : Host) (question : HostQuestion) :
    (host.answer store question).BuildsNone := by
  cases question with
  | scriptVersion path =>
      exact buildsNone_onSnapshots
        ((SnapshotCache.buildsNone_snapshot store path _).bind (buildsNone_pure _))
  | scriptSnapshot path => exact host.buildsNone_snapshot store path
  | directoryExists path =>
      exact buildsNone_onDirectories (DirectoryCache.buildsNone_explore store _ path _)
  | directories path =>
      exact buildsNone_onDirectories
        ((DirectoryCache.buildsNone_explore store _ path _).bind (buildsNone_pure _))
  | trace message | complaint message => exact (buildsNone_note rfl).bind (buildsNone_pure _)
  | _ => exact buildsNone_pure _

end Host

/-- None of the events that the inquiry notes tells of an engine. -/
def Inquiry.NotesNone : Inquiry α → Prop
  | .done _ => True
  | .note event next => event.builtFor? = none ∧ next.NotesNone
  | .ask _ next => ∀ answer, (next answer).NotesNone

theorem Inquiry.buildsNone_run {inquiry : Inquiry α} (quiet : inquiry.NotesNone)
    (store : SourceStore) (host : Host) : (inquiry.run store host).BuildsNone := by
  induction inquiry generalizing host with
  | done result => exact buildsNone_pure _
  | note event next inductionHypothesis =>
      exact (buildsNone_note quiet.1).bind (inductionHypothesis quiet.2 host)
  | ask question next inductionHypothesis =>
      exact (host.buildsNone_answer store question).bind (inductionHypothesis _ (quiet _) _)

/-- An engine that never claims in its notes that an engine was built. -/
structure Engine.NotesNone (engine : Engine σ) : Prop where
  declaration : ∀ file state, (engine.declaration file state).NotesNone
  semantic : ∀ file state, (engine.semantic file state).NotesNone
  syntactic : ∀ file state, (engine.syntactic file state).NotesNone
  completions : ∀ file offset state, (engine.completions file offset state).NotesNone

theorem DelimiterEngine.notesNone : engine.NotesNone where
  declaration _ _ := trivial
  semantic _ _ := trivial
  syntactic _ _ := fun
    | none => trivial
    | some _ => ⟨rfl, trivial⟩
  completions _ _ _ := fun
    | none => trivial
    | some _ => trivial

theorem Engine.NotesNone.stage {engine : Engine σ} (quiet : engine.NotesNone)
    {stage : Project.Stage σ} (known : stage ∈ Project.stages engine) (file : SourcePath)
    (state : σ) : (stage.inquiry file state).NotesNone := by
  simp only [Project.stages, List.mem_cons, List.not_mem_nil, or_false] at known
  rcases known with rfl | rfl | rfl
  · exact quiet.declaration file state
  · exact quiet.semantic file state
  · exact quiet.syntactic file state

namespace Project

variable {engine : Engine σ}

theorem buildsNone_create (store : SourceStore) (options : HostOptions) (engineState : σ)
    (resolved : ResolvedProject) : (create store options engineState resolved).BuildsNone :=
  (Host.buildsNone_preload store _ _).bind ((buildsNone_note rfl).bind (buildsNone_pure _))

theorem buildsNone_reconfigure (store : SourceStore) (resolved : ResolvedProject)
    (project : Project σ) : (project.reconfigure store resolved).BuildsNone :=
  (Host.buildsNone_preload store _ _).bind ((buildsNone_note rfl).bind (buildsNone_pure _))

theorem buildsNone_consult {inquiry : σ → EngineAnswer σ α}
    (quiet : ∀ state, (inquiry state).NotesNone) (store : SourceStore) (query : EngineQuery)
    (file : SourcePath) (project : Project σ) :
    (project.consult store query file inquiry).BuildsNone :=
  (buildsNone_note rfl).bind
    ((Inquiry.buildsNone_run (quiet _) store _).bind (buildsNone_pure _))

theorem buildsNone_onHost {operation : Host → Traced (α × Host)} {project : Project σ}
    (quiet : (operation project.host).BuildsNone) : (project.onHost operation).BuildsNone :=
  quiet.bind (buildsNone_pure _)

theorem buildsNone_report (store : SourceStore) (kind : DiagnosticKind)
    (finding : EngineDiagnostic) (host : Host) : (report store kind finding host).BuildsNone := by
  rw [report]
  split
  · exact buildsNone_pure _
  · exact (host.buildsNone_snapshot store _).bind (buildsNone_pure _)

theorem buildsNone_runStages (quiet : engine.NotesNone) (store : SourceStore) (file : SourcePath)
    {stages : List (Stage σ)} (known : stages ⊆ Project.stages engine) (project : Project σ) :
    (runStages store file stages project).BuildsNone := by
  induction stages generalizing project with
  | nil => exact buildsNone_pure _
  | cons stage rest inductionHypothesis =>
      have asked := buildsNone_consult (quiet.stage (known List.mem_cons_self) file) store
        stage.query file project
      refine asked.bind ?_
      split
      · exact buildsNone_pure _
      · refine (buildsNone_onHost (.mapState (buildsNone_report store stage.kind) _ _)).bind ?_
        refine (inductionHypothesis (List.subset_of_cons_subset known) _).bind ?_
        split <;> exact buildsNone_pure _

theorem buildsNone_runLinter (store : SourceStore) (file : SourcePath) (project : Project σ) :
    (project.runLinter store file).BuildsNone := by
  rw [runLinter]
  split
  · exact buildsNone_pure _
  · exact (buildsNone_onHost (Host.buildsNone_snapshot store file _)).bind (buildsNone_pure _)

theorem buildsNone_diagnostics (quiet : engine.NotesNone) (store : SourceStore)
    (file : SourcePath) (code : String) (project : Project σ) :
    (project.diagnostics store engine file code).BuildsNone := by
  rw [diagnostics]
  split
  · refine (buildsNone_onHost (Host.buildsNone_setContent store file code _)).bind ?_
    refine (buildsNone_runStages quiet store file (List.Subset.refl _) _).bind ?_
    split
    · exact buildsNone_pure _
    · exact (buildsNone_runLinter store file _).bind (buildsNone_pure _)
    · exact buildsNone_pure _
  · exact buildsNone_pure _

theorem buildsNone_completions (quiet : engine.NotesNone) (store : SourceStore)
    (file : SourcePath) (code : String) (offset : Nat) (project : Project σ) :
    (project.completions store engine file code offset).BuildsNone := by
  rw [completions]
  split
  · refine (buildsNone_onHost (Host.buildsNone_setContent store file code _)).bind ?_
    refine (buildsNone_onHost (Host.buildsNone_snapshot store file _)).bind ?_
    dsimp only
    split
    · exact buildsNone_pure _
    · refine (buildsNone_consult (quiet.completions file offset) store _ file _).bind ?_
      split <;> exact buildsNone_pure _
  · exact buildsNone_pure _

end Project

theorem buildsNone_findRootFiles (store : SourceStore) (files : List SourcePath) :
    (findRootFiles store files).BuildsNone := by
  induction files with
  | nil => exact Traced.buildsNone_pure _
  | cons file rest inductionHypothesis =>
      refine (store.buildsNone_readText file).bind (inductionHypothesis.bind ?_)
      dsimp only
      split <;> exact Traced.buildsNone_pure _

theorem buildsNone_resolveProject (store : SourceStore) (root : SourcePath) :
    (resolveProject store root).BuildsNone := by
  have loaded : (loadConfig store root).BuildsNone := by
    refine (store.buildsNone_readText _).bind ?_
    split
    · exact Traced.buildsNone_pure _
    · exact (Traced.buildsNone_note rfl).bind (Traced.buildsNone_pure _)
  refine loaded.bind ?_
  split
  · exact (Traced.buildsNone_note rfl).bind (Traced.buildsNone_pure _)
  · exact (buildsNone_findRootFiles store _).bind (Traced.buildsNone_pure _)

end ScriptAnalysis
