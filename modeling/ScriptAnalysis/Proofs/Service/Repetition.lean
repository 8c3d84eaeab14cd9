import ScriptAnalysis.Proofs.Cache.Reading
import ScriptAnalysis.Proofs.Service.Delimiter
import ScriptAnalysis.Proofs.Service.Growth
import ScriptAnalysis.Proofs.Service.Processed

/-!
# What a request leaves behind

With the delimiter engine a diagnostics request and a completion request have one effect: the
project of the root is obtained and, unless its configuration is broken, takes the text as the
content of the file (`Registry.requests_have_one_effect`). A text that is pushed once more is
already there. So a repeated request gets the same answer, leaves the registry as it is and does
not ask the store, whatever became of the store meanwhile (`Registry.repeated_request_is_free`).
-/

namespace ScriptAnalysis

namespace Traced

variable {α β σ : Type} {step : α → σ → Traced (β × σ)}

/-- Quiet steps that leave the state alone make a quiet walk. -/
theorem Quiet.mapState {state : σ} {items : List α}
    (each : ∀ item ∈ items, (step item state).Quiet ∧ (step item state).value.2 = state) :
    (Traced.mapState step items state).Quiet := by
  induction items with
  | nil => exact quiet_pure _
  | cons item rest inductionHypothesis =>
      obtain ⟨quiet, still⟩ := each item List.mem_cons_self
      have others := inductionHypothesis fun other member =>
        each other (List.mem_cons_of_mem item member)
      refine quiet.bind (Quiet.bind ?_ (quiet_pure _))
      rw [still]
      exact others

end Traced

open Traced

/-- An inquiry that begins with a snapshot asks for it and goes on. -/
theorem Inquiry.run_snapshot {α : Type} (store : SourceStore) (file : SourcePath)
    (next : Option Snapshot → Inquiry α) (host : Host) :
    ((Inquiry.snapshot file).bind next).run store host =
      host.snapshot store file >>= fun looked => (next looked.1).run store looked.2 := rfl

namespace SnapshotCache

variable {cache : SnapshotCache} {path : SourcePath} {text : String}

/-- A snapshot of the same version stays. -/
theorem keep_of_cached {snapshot : Snapshot} (found : cache.cached? path = some snapshot)
    (same : snapshot.version = ContentHash.ofText text) :
    cache.keep path text = (snapshot, cache) := by
  rw [keep, found]
  exact if_pos same

/-- What is kept has the version of the text. -/
theorem version_keep (cache : SnapshotCache) (path : SourcePath) (text : String) :
    (cache.keep path text).1.version = ContentHash.ofText text := by
  rw [keep]
  split
  · next existing found =>
      split
      · next same => exact same
      · rfl
  · rfl

/-- A pushed text that is not empty is kept, and the store is not asked. -/
theorem setContent_of_nonempty (store : SourceStore) (cache : SnapshotCache) (path : SourcePath)
    (nonempty : text ≠ "") :
    cache.setContent store path text =
      pure (some (cache.keep path text).1, (cache.keep path text).2) := by
  rw [setContent, if_neg (by simpa using nonempty)]

/-- A text that is pushed once more is there already. -/
theorem setContent_again (first second : SourceStore) (cache : SnapshotCache) (path : SourcePath)
    (nonempty : text ≠ "") :
    (cache.setContent first path text).value.2.setContent second path text =
      pure (cache.setContent first path text).value := by
  rw [setContent_of_nonempty first cache path nonempty, Traced.value_pure,
    setContent_of_nonempty second _ path nonempty,
    keep_of_cached (cached?_keep_self cache path text) (version_keep cache path text)]

end SnapshotCache

namespace Project

variable {store : SourceStore} {file : SourcePath} {code : String} {project : Project Unit}

/-! ### A push and a second one -/

/-- A text that is pushed once more is there already: nothing happens. -/
theorem push_again (first second : SourceStore) (file : SourcePath) (nonempty : code ≠ "")
    (project : Project Unit) :
    (project.withContent first file code).onHost (Host.setContent second file code) =
      pure ((project.onHost (Host.setContent first file code)).value.1,
        project.withContent first file code) := by
  have again :=
    SnapshotCache.setContent_again first second project.host.cache.snapshots file nonempty
  simp only [withContent, onHost, Host.setContent, Host.onCache, SourceCache.setContent,
    SourceCache.onSnapshots, Traced.value_bind, Traced.value_pure, again, pure_bind]

theorem withContent_again (first second : SourceStore) (file : SourcePath)
    (nonempty : code ≠ "") (project : Project Unit) :
    (project.withContent first file code).withContent second file code =
      project.withContent first file code := by
  rw [withContent, push_again first second file nonempty project, Traced.value_pure]

/-- A text that was pushed is tracked. -/
theorem cached?_withContent_of_nonempty (store : SourceStore) (file : SourcePath)
    (nonempty : code ≠ "") (project : Project Unit) :
    (project.withContent store file code).cached? file =
      some (project.host.cache.snapshots.keep file code).1 :=
  calc (project.withContent store file code).cached? file
    _ = (project.host.cache.snapshots.setContent store file code).value.1 :=
        SnapshotCache.cached?_setContent_self store file code _
    _ = some (project.host.cache.snapshots.keep file code).1 := by
        rw [SnapshotCache.setContent_of_nonempty store _ file nonempty, Traced.value_pure]

/-! ### Requests about a tracked file -/

variable {snapshot : Snapshot}

/-- The snapshot of a tracked file is served from the cache. -/
theorem snapshot_of_cached (tracked : project.cached? file = some snapshot)
    (store : SourceStore) :
    project.host.snapshot store file = pure (some snapshot, project.host) := by
  have found : project.host.cache.snapshots.snapshot store file =
      pure (some snapshot, project.host.cache.snapshots) :=
    SnapshotCache.snapshot_of_cached tracked
  simp only [Host.snapshot, Host.onCache, SourceCache.snapshot, SourceCache.onSnapshots, found,
    pure_bind]

theorem knows_of_cached (tracked : project.cached? file = some snapshot) (store : SourceStore) :
    project.Knows store file :=
  .inl (by rw [show project.host.cache.snapshots.cached? file = some snapshot from tracked]; rfl)

theorem onHost_snapshot_of_cached (tracked : project.cached? file = some snapshot)
    (store : SourceStore) :
    project.onHost (Host.snapshot store file) = pure (some snapshot, project) := by
  rw [onHost, snapshot_of_cached tracked, pure_bind]

theorem quiet_consult_nothing (store : SourceStore) (query : EngineQuery) (file : SourcePath)
    (project : Project Unit) :
    (project.consult store query file (DelimiterEngine.nothing file)).Quiet :=
  (quiet_note rfl rfl).bind (quiet_pure _)

theorem quiet_consult_syntactic (tracked : project.cached? file = some snapshot)
    (store : SourceStore) (query : EngineQuery) :
    (project.consult store query file (DelimiterEngine.syntactic file)).Quiet := by
  refine (quiet_note rfl rfl).bind (.bind ?_ (quiet_pure _))
  rw [DelimiterEngine.syntactic, Inquiry.run_snapshot, snapshot_of_cached tracked, pure_bind]
  exact (quiet_note rfl rfl).bind (quiet_pure _)

theorem quiet_consult_completions (tracked : project.cached? file = some snapshot)
    (store : SourceStore) (query : EngineQuery) (offset : Nat) :
    (project.consult store query file (DelimiterEngine.completions file offset)).Quiet := by
  refine (quiet_note rfl rfl).bind (.bind ?_ (quiet_pure _))
  rw [DelimiterEngine.completions, Inquiry.run_snapshot, snapshot_of_cached tracked, pure_bind]
  exact quiet_pure _

/-- The engine's findings in a tracked file are placed by its snapshot. -/
theorem quiet_reports (tracked : project.cached? file = some snapshot) (store : SourceStore)
    (kind : DiagnosticKind) :
    (project.onHost
      (Traced.mapState (report store kind) (project.findings file))).Quiet := by
  refine .bind (.mapState fun finding member => ?_) (quiet_pure _)
  rw [findings, tracked] at member
  obtain ⟨imbalance, _, rfl⟩ := List.mem_map.mp member
  rw [report]
  simp only [snapshot_of_cached tracked, pure_bind]
  exact ⟨quiet_pure _, rfl⟩

/-- A quiet stage that leaves the project alone before quiet stages. -/
theorem quiet_runStages_cons (stage : Stage Unit) {rest : List (Stage Unit)}
    {found : List EngineDiagnostic} {reported : List Diagnostic}
    (consulted : (project.consult store stage.query file (stage.inquiry file)).value =
      (.ok found, project))
    (placed : (project.onHost (Traced.mapState (report store stage.kind) found)).value =
      (reported, project))
    (asks : (project.consult store stage.query file (stage.inquiry file)).Quiet)
    (places : (project.onHost (Traced.mapState (report store stage.kind) found)).Quiet)
    (later : (runStages store file rest project).Quiet) :
    (runStages store file (stage :: rest) project).Quiet := by
  refine asks.bind ?_
  rw [consulted]
  refine places.bind ?_
  rw [placed]
  refine later.bind ?_
  split <;> exact quiet_pure _

theorem quiet_runStages (tracked : project.cached? file = some snapshot) (store : SourceStore) :
    (runStages store file (stages DelimiterEngine.engine) project).Quiet := by
  have knows := knows_of_cached tracked store
  have still : ∀ kind, (project.onHost (Traced.mapState (report store kind) [])).value =
      ([], project) := fun _ => rfl
  have empty : ∀ kind, (project.onHost (Traced.mapState (report store kind) [])).Quiet :=
    fun _ => quiet_pure _
  refine quiet_runStages_cons ⟨.declaration, .declaration, DelimiterEngine.nothing⟩
    (consult_nothing store _ file project) (still _) (quiet_consult_nothing ..) (empty _) ?_
  refine quiet_runStages_cons ⟨.semantic, .semantic, DelimiterEngine.nothing⟩
    (consult_nothing store _ file project) (still _) (quiet_consult_nothing ..) (empty _) ?_
  exact quiet_runStages_cons ⟨.syntactic, .syntactic, DelimiterEngine.syntactic⟩
    (consult_syntactic knows _) (report_findings knows) (quiet_consult_syntactic tracked store _)
    (quiet_reports tracked store _) (quiet_pure _)

theorem quiet_runLinter (tracked : project.cached? file = some snapshot) (store : SourceStore) :
    (project.runLinter store file).Quiet := by
  rw [runLinter]
  split
  · exact quiet_pure _
  · rw [onHost_snapshot_of_cached tracked, pure_bind]
    exact quiet_pure _

/-! ### The same request twice -/

/-- On a project that already has the pushed text a diagnostics request does not ask the store. -/
theorem quiet_diagnostics_again (first second : SourceStore) (file : SourcePath)
    (nonempty : code ≠ "") (project : Project Unit) :
    ((project.withContent first file code).diagnostics second DelimiterEngine.engine file
      code).Quiet := by
  have tracked := cached?_withContent_of_nonempty first file nonempty project
  rw [diagnostics]
  split
  · rw [push_again first second file nonempty project, pure_bind]
    refine (quiet_runStages tracked second).bind ?_
    rw [runStages_value (knows_of_cached tracked second)]
    cases (project.withContent first file code).entries file with
    | nil => exact (quiet_runLinter tracked second).bind (quiet_pure _)
    | cons first rest => exact quiet_pure _
  · exact quiet_pure _

/-- Neither does a completion request. -/
theorem quiet_completions_again (first second : SourceStore) (file : SourcePath)
    (nonempty : code ≠ "") (offset : Nat) (project : Project Unit) :
    ((project.withContent first file code).completions second DelimiterEngine.engine file code
      offset).Quiet := by
  have tracked := cached?_withContent_of_nonempty first file nonempty project
  rw [completions]
  split
  · rw [push_again first second file nonempty project, pure_bind]
    dsimp only
    rw [onHost_snapshot_of_cached tracked, pure_bind]
    dsimp only
    split
    · exact quiet_pure _
    · refine (quiet_consult_completions tracked second _ offset).bind ?_
      split <;> exact quiet_pure _
  · exact quiet_pure _

/-- A diagnostics request that is made once more gets the same answer, leaves the project as it
is and does not ask the store. -/
theorem diagnostics_again (first second : SourceStore) (file : SourcePath)
    (nonempty : code ≠ "") (project : Project Unit) :
    let once := (project.diagnostics first DelimiterEngine.engine file code).value
    let again := once.2.diagnostics second DelimiterEngine.engine file code
    again.value = once ∧ again.Quiet := by
  by_cases configured : project.configurationErrors.isEmpty = true
  · have usable : (project.withContent first file code).configurationErrors.isEmpty = true :=
      configured
    rw [diagnostics_value, if_pos configured]
    refine ⟨?_, quiet_diagnostics_again first second file nonempty project⟩
    rw [diagnostics_value, if_pos usable, withContent_again first second file nonempty project]
  · rw [diagnostics_value, if_neg configured]
    refine ⟨?_, ?_⟩
    · rw [diagnostics_value, if_neg configured]
    · rw [diagnostics, if_neg configured]
      exact quiet_pure _

/-- So does a completion request, whether or not its offset is in range. -/
theorem completions_again (first second : SourceStore) (file : SourcePath)
    (nonempty : code ≠ "") (offset : Nat) (project : Project Unit) :
    let once := (project.completions first DelimiterEngine.engine file code offset).value
    let again := once.2.completions second DelimiterEngine.engine file code offset
    again.value = once ∧ again.Quiet := by
  by_cases configured : project.configurationErrors.isEmpty = true
  · have usable : (project.withContent first file code).configurationErrors.isEmpty = true :=
      configured
    rw [completions_value, if_pos configured]
    refine ⟨?_, quiet_completions_again first second file nonempty offset project⟩
    rw [completions_value, if_pos usable, withContent_again first second file nonempty project]
  · rw [completions_value, if_neg configured]
    refine ⟨?_, ?_⟩
    · rw [completions_value, if_neg configured]
    · rw [completions, if_neg configured]
      exact quiet_pure _

end Project

namespace Registry

open DelimiterEngine (engine)

variable {store : SourceStore} {registry : Registry Unit}

/-- Both kinds of requests obtain the project of the root, and let it take the text as the
content of the file unless its configuration is broken. That is all they do to a registry, whether
or not they are answered. -/
theorem requests_have_one_effect (reachable : Reachable engine registry) (store : SourceStore)
    (root file : SourcePath) (code : String) (offset : Nat) :
    let backend := Backend.overStore store engine
    let opened := (registry.getOrCreate backend root).value
    let after := (registry.diagnostics backend root file code).value.2
    (registry.completions backend root file code offset).value.2 = after ∧
      ∃ project, opened.1 = .ok project ∧ opened.2.find? root = some project ∧
        after = if project.configurationErrors.isEmpty then
            opened.2.insert root.normalize
              { project with
                host := (project.host.setContent store file.normalize code).value.2 }
          else opened.2 := by
  intro backend opened after
  have obtained : opened = _ := getOrCreate_value store engine root registry
  have wellFormed : opened.2.WellFormed := reachable.wellFormed.getOrCreate root
  have answered : opened.1 = .ok (registry.obtained store engine root) := by rw [obtained]
  have there : opened.2.projects.find? root.normalize =
      some (registry.obtained store engine root) :=
    find?_getOrCreate (Prod.ext answered rfl)
  refine ⟨?_, registry.obtained store engine root, answered, there, ?_⟩
  · show (registry.completions backend root file code offset).value.2 =
      (registry.diagnostics backend root file code).value.2
    rw [diagnostics_value, completions_value, onProject_value, onProject_value,
      Project.diagnostics_value, Project.completions_project]
    split <;> rfl
  · have diagnosed : after = opened.2.insert root.normalize _ :=
      congrArg Prod.snd ((diagnostics_value store engine root file code registry).trans
        (onProject_value store engine root _ registry))
    rw [diagnosed, Project.diagnostics_value]
    split
    · rfl
    · exact insert_eq_self wellFormed.ascending there

/-- A completion request that fails for its offset replaces a text that was read before, as a
diagnostics request does. -/
theorem requests_have_one_effect_beyond_end :
    let store := (Tree.empty.writeFile ⟨"/p/a.ts"⟩ "f(").store
    let backend := Backend.overStore store engine
    let registry := ((empty HostOptions.standard).diagnostics backend ⟨"/p"⟩ ⟨"/p/a.ts"⟩ "").value.2
    let opened := (registry.getOrCreate backend ⟨"/p/"⟩).value
    let failed := (registry.completions backend ⟨"/p/"⟩ ⟨"/p/./a.ts"⟩ "ab" 9).value
    Reachable engine registry ∧
      failed.1 = .error (.engine (.offsetOutOfRange ⟨"/p/a.ts"⟩ 9)) ∧
      failed.2 = (registry.diagnostics backend ⟨"/p/"⟩ ⟨"/p/./a.ts"⟩ "ab").value.2 ∧
      ∃ project, opened.1 = .ok project ∧ opened.2.find? ⟨"/p/"⟩ = some project ∧
        failed.2 = if project.configurationErrors.isEmpty then
            opened.2.insert (SourcePath.mk "/p/").normalize
              { project with
                host := (project.host.setContent store (SourcePath.mk "/p/./a.ts").normalize
                  "ab").value.2 }
          else opened.2 := by
  intro store backend registry opened failed
  have reachable : Reachable engine registry :=
    .diagnostics (.empty HostOptions.standard) _ ⟨"/p"⟩ ⟨"/p/a.ts"⟩ ""
  have fails : failed.1 = .error (.engine (.offsetOutOfRange ⟨"/p/a.ts"⟩ 9)) := by decide +kernel
  -- The rest holds of every reachable registry, so this one need not be evaluated again.
  clear_value registry store
  obtain ⟨same, project, obtained, there, effect⟩ :=
    requests_have_one_effect reachable store ⟨"/p/"⟩ ⟨"/p/./a.ts"⟩ "ab" 9
  exact ⟨reachable, fails, same, project, obtained, there, same.trans effect⟩

/-- Once a request has replaced the project of its root, one that its operation no longer changes
gives the same answer and changes nothing. -/
theorem onProject_again {α : Type} {operation repeated :
      Project Unit → Traced (Except EngineError α × Project Unit)}
    (wellFormed : registry.WellFormed) (first second : SourceStore) {root spelling : SourcePath}
    (sameRoot : spelling.normalize = root.normalize)
    (repeats : ∀ project, (repeated (operation project).value.2).value = (operation project).value ∧
      (repeated (operation project).value.2).Quiet) :
    let once := (registry.onProject (Backend.overStore first engine) root operation).value
    let again := once.2.onProject (Backend.overStore second engine) spelling repeated
    again.value = once ∧ again.Quiet := by
  intro once again
  obtain ⟨sameOutcome, quiet⟩ := repeats (registry.obtained first engine root)
  have replaced : once = _ := onProject_value first engine root operation registry
  have after : once.2.WellFormed := wellFormed.onProject
  have there : once.2.projects.find? root.normalize =
      some (operation (registry.obtained first engine root)).value.2 := by
    rw [replaced]
    exact (PathMap.find?_insert _ _ _ _).trans (if_pos rfl)
  have found : once.2.getOrCreate (Backend.overStore second engine) spelling =
      pure (.ok (operation (registry.obtained first engine root)).value.2, once.2) :=
    getOrCreate_of_found (sameRoot ▸ there)
  have unfolded : again = (repeated (operation (registry.obtained first engine root)).value.2 >>=
      fun outcome => pure (outcome.1.mapError ServiceError.engine,
        once.2.insert spelling.normalize outcome.2)) := by
    show once.2.onProject _ spelling repeated = _
    rw [onProject, found, pure_bind]
  rw [unfolded]
  refine ⟨?_, quiet.bind (quiet_pure _)⟩
  rw [Traced.value_bind, Traced.value_pure, sameOutcome, sameRoot,
    insert_eq_self after.ascending there, replaced]

/-- The event of a failed request is no access to the store. -/
theorem quiet_diagnostics {backend : Backend Unit} {root file : SourcePath} {code : String}
    (quiet : (registry.onProject backend root
      (Project.diagnostics backend.store backend.engine file.normalize code)).Quiet) :
    (registry.diagnostics backend root file code).Quiet := by
  refine quiet.bind ?_
  generalize (registry.onProject backend root _).value = outcome
  obtain ⟨answer, next⟩ := outcome
  cases answer with
  | error error => exact (quiet_note rfl rfl).bind (quiet_pure _)
  | ok report => exact quiet_pure _

theorem quiet_completions {backend : Backend Unit} {root file : SourcePath} {code : String}
    {offset : Nat}
    (quiet : (registry.onProject backend root
      (Project.completions backend.store backend.engine file.normalize code offset)).Quiet) :
    (registry.completions backend root file code offset).Quiet := by
  refine quiet.bind ?_
  generalize (registry.onProject backend root _).value = outcome
  obtain ⟨answer, next⟩ := outcome
  cases answer with
  | error error => exact (quiet_note rfl rfl).bind (quiet_pure _)
  | ok report => exact quiet_pure _

/-- A request that pushes a text and is made once more, under whatever spellings of its paths,
gets the same answer, leaves the registry as it is, and neither reads nor lists anything, even if
the store is another one by then. -/
theorem repeated_request_is_free (reachable : Reachable engine registry)
    (first second : SourceStore) {root file root' file' : SourcePath}
    (sameRoot : root'.normalize = root.normalize) (sameFile : file'.normalize = file.normalize)
    {code : String} (nonempty : code ≠ "") (offset : Nat) :
    (let once := (registry.diagnostics (Backend.overStore first engine) root file code).value
      let again := once.2.diagnostics (Backend.overStore second engine) root' file' code
      again.value = once ∧ Event.reads again.events = 0 ∧ Event.listings again.events = 0) ∧
    (let once := (registry.completions (Backend.overStore first engine) root file code offset).value
      let again := once.2.completions (Backend.overStore second engine) root' file' code offset
      again.value = once ∧ Event.reads again.events = 0 ∧ Event.listings again.events = 0) := by
  have wellFormed := reachable.wellFormed
  constructor
  · intro once again
    have posed : once = _ := diagnostics_value first engine root file code registry
    obtain ⟨same, quiet⟩ := onProject_again wellFormed first second sameRoot fun project =>
      Project.diagnostics_again first second file.normalize nonempty project
    rw [← posed, ← sameFile] at same quiet
    have noted : again.Quiet := quiet_diagnostics quiet
    exact ⟨(diagnostics_value second engine root' file' code once.2).trans same, noted.reads,
      noted.listings⟩
  · intro once again
    have posed : once = _ := completions_value first engine root file code offset registry
    obtain ⟨same, quiet⟩ := onProject_again wellFormed first second sameRoot fun project =>
      Project.completions_again first second file.normalize nonempty offset project
    rw [← posed, ← sameFile] at same quiet
    have noted : again.Quiet := quiet_completions quiet
    exact ⟨(completions_value second engine root' file' code offset once.2).trans same,
      noted.reads, noted.listings⟩

/-- Requests for a new project are made again, in other spellings, after its file was written and
its configuration broken: the finding and the failure stay the same. -/
theorem repeated_request_is_free_over_changed_store :
    let first := Tree.empty.store
    let second := (Tree.built [.writeFile ⟨"/p/a.ts"⟩ "let b;",
      .writeFile ⟨"/p/quill.toml"⟩ "files = ["]).store
    let registry : Registry Unit := empty HostOptions.standard
    let diagnosed := (registry.diagnostics (Backend.overStore first engine) ⟨"/p"⟩ ⟨"/p/a.ts"⟩
      "f(").value
    let rediagnosed := diagnosed.2.diagnostics (Backend.overStore second engine) ⟨"/p/."⟩
      ⟨"/p//a.ts"⟩ "f("
    let failed := (registry.completions (Backend.overStore first engine) ⟨"/p"⟩ ⟨"/p/a.ts"⟩
      "f(" 3).value
    let refailed := failed.2.completions (Backend.overStore second engine) ⟨"/p/."⟩ ⟨"/p//a.ts"⟩
      "f(" 3
    Reachable engine registry ∧
      (SourcePath.mk "/p/.").normalize = (SourcePath.mk "/p").normalize ∧
      (SourcePath.mk "/p//a.ts").normalize = (SourcePath.mk "/p/a.ts").normalize ∧ "f(" ≠ "" ∧
      diagnosed.1 = .ok ⟨[⟨.syntactic, "TS1005: ')' expected.", some ⟨0, 2⟩⟩]⟩ ∧
      failed.1 = .error (.engine (.offsetOutOfRange ⟨"/p/a.ts"⟩ 3)) ∧
      (rediagnosed.value = diagnosed ∧ Event.reads rediagnosed.events = 0 ∧
        Event.listings rediagnosed.events = 0) ∧
      refailed.value = failed ∧ Event.reads refailed.events = 0 ∧
        Event.listings refailed.events = 0 := by
  intro first second registry diagnosed rediagnosed failed refailed
  have reachable : Reachable engine registry := .empty HostOptions.standard
  have sameRoot : (SourcePath.mk "/p/.").normalize = (SourcePath.mk "/p").normalize := by
    decide +kernel
  have sameFile : (SourcePath.mk "/p//a.ts").normalize = (SourcePath.mk "/p/a.ts").normalize := by
    decide +kernel
  have nonempty : "f(" ≠ "" := by decide
  obtain ⟨again, failsAgain⟩ :=
    repeated_request_is_free reachable first second sameRoot sameFile nonempty 3
  exact ⟨reachable, sameRoot, sameFile, nonempty, by decide +kernel, by decide +kernel, again,
    failsAgain⟩

end Registry

end ScriptAnalysis
