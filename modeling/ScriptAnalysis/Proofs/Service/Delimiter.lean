import ScriptAnalysis.Engine.Delimiter
import ScriptAnalysis.Proofs.Service.Batch
import ScriptAnalysis.Proofs.Traced

/-!
# Requests with the delimiter engine

Once a request has set the content of its file, everything that follows looks at that file
only and finds it known, so the project no longer changes (`diagnostics_value`,
`completions_project`). What is reported is what `statelessReport` computes from a text
alone, without projects, hosts or caches.
-/

namespace ScriptAnalysis

@[simp]
theorem MessageChain.flatten_single (message newLine : String) :
    (MessageChain.single message).flatten newLine = message := by
  simp [single, flatten, flattenAt, flattenAll, indent]

/-- An inquiry that begins with a snapshot looks it up and goes on. -/
theorem Inquiry.value_run_snapshot {α : Type} (store : SourceStore) (file : SourcePath)
    (next : Option Snapshot → Inquiry α) (host : Host) :
    (((Inquiry.snapshot file).bind next).run store host).value =
      ((next (host.snapshot store file).value.1).run store
        (host.snapshot store file).value.2).value := rfl

/-- What is out of balance in a captured text, as syntactic diagnostics. -/
def syntacticEntries (snapshot : Snapshot) : List Diagnostic :=
  (Balance.check snapshot.text).map fun finding =>
    Diagnostic.compiler .syntactic ⟨finding.imbalance.code⟩ finding.imbalance.message
      (some (snapshot.positionAt finding.offset))

/-- The report on a file that has the given text, if any: what is wrong with the
configuration, else what is out of balance, else what the linter finds. -/
def statelessReport (configurationErrors : List Diagnostic) (linter : Option Linter)
    (file : SourcePath) (text : Option String) : Report :=
  if configurationErrors.isEmpty then
    match text with
    | none => Report.clean
    | some text =>
        let snapshot := Snapshot.capture file text
        if (syntacticEntries snapshot).isEmpty then
          match linter with
          | none => Report.clean
          | some linter => ⟨linter.run snapshot⟩
        else ⟨syntacticEntries snapshot⟩
  else ⟨configurationErrors⟩

namespace Project

variable {store : SourceStore} {file : SourcePath} {project : Project Unit}

/-- The project after the content of a file was set. -/
def withContent (store : SourceStore) (file : SourcePath) (code : String)
    (project : Project Unit) : Project Unit :=
  (project.onHost (Host.setContent store file code)).value.2

theorem content?_withContent (store : SourceStore) (file : SourcePath) (code : String)
    (project : Project Unit) (place : SourcePath) :
    (project.withContent store file code).content? place =
      if file.components = place.components then
        Content.refreshed (store.effective file code) (project.content? place)
      else project.content? place :=
  SnapshotCache.content?_setContent store file code _ place

/-- The snapshot of a file in the cache of the project. -/
def cached? (project : Project Unit) (file : SourcePath) : Option Snapshot :=
  project.host.cache.snapshots.cached? file

/-- Whether the project knows a file as well as the store does. -/
def Knows (store : SourceStore) (file : SourcePath) (project : Project Unit) : Prop :=
  project.host.cache.snapshots.Knows store file

theorem knows_withContent (store : SourceStore) (file : SourcePath) (code : String)
    (project : Project Unit) : (project.withContent store file code).Knows store file :=
  SnapshotCache.knows_setContent store file code _

/-- A known file is looked up and the host stays as it is. -/
theorem Knows.snapshot_value (knows : project.Knows store file) :
    (project.host.snapshot store file).value = (project.cached? file, project.host) := by
  have looked := SnapshotCache.Knows.snapshot_value knows
  simp only [Host.snapshot, Host.onCache, SourceCache.snapshot, SourceCache.onSnapshots,
    Traced.value_bind, Traced.value_pure, looked]
  rfl

/-- The engine's findings in a known file. -/
def findings (file : SourcePath) (project : Project Unit) : List EngineDiagnostic :=
  ((project.cached? file).map fun snapshot => DelimiterEngine.findings file snapshot.text).getD []

/-- The diagnostics for the engine's findings in a known file. -/
def entries (file : SourcePath) (project : Project Unit) : List Diagnostic :=
  ((project.cached? file).map syntacticEntries).getD []

theorem consult_nothing (store : SourceStore) (query : EngineQuery) (file : SourcePath)
    (project : Project Unit) :
    (project.consult store query file (DelimiterEngine.nothing file)).value =
      (.ok [], project) := rfl

theorem consult_syntactic (knows : project.Knows store file) (query : EngineQuery) :
    (project.consult store query file (DelimiterEngine.syntactic file)).value =
      (.ok (project.findings file), project) := by
  have asked : ((DelimiterEngine.syntactic file ()).run store project.host).value =
      ((.ok (project.findings file), ()), project.host) := by
    rw [DelimiterEngine.syntactic, Inquiry.value_run_snapshot, knows.snapshot_value, findings]
    cases project.cached? file <;> rfl
  simp only [consult, Traced.value_bind, Traced.value_pure, asked]

theorem consult_completions (knows : project.Knows store file) (query : EngineQuery)
    (offset : Nat) :
    (project.consult store query file (DelimiterEngine.engine.completions file offset)).value =
      (.ok (((project.cached? file).map fun snapshot =>
        (DelimiterEngine.names snapshot.text offset).map DelimiterEngine.candidate).getD []),
        project) := by
  have asked : ((DelimiterEngine.engine.completions file offset ()).run store project.host).value =
      ((.ok (((project.cached? file).map fun snapshot =>
        (DelimiterEngine.names snapshot.text offset).map DelimiterEngine.candidate).getD []), ()),
        project.host) := by
    show ((DelimiterEngine.completions file offset ()).run store project.host).value = _
    rw [DelimiterEngine.completions, Inquiry.value_run_snapshot, knows.snapshot_value]
    cases project.cached? file <;> rfl
  simp only [consult, Traced.value_bind, Traced.value_pure, asked]

/-- The positions of findings in a known file are those in its snapshot. -/
theorem report_findings (knows : project.Knows store file) :
    (project.onHost (Traced.mapState (report store .syntactic) (project.findings file))).value =
      (project.entries file, project) := by
  have looked := knows.snapshot_value
  rw [findings, entries]
  cases found : project.cached? file with
  | none => rfl
  | some snapshot =>
      rw [found] at looked
      have still : ∀ finding ∈ DelimiterEngine.findings file snapshot.text,
          (report store .syntactic finding project.host).value =
            (Diagnostic.compiler .syntactic ⟨finding.code⟩
              (finding.message.flatten messageSeparator)
              (finding.location.map fun location => snapshot.positionAt location.start),
              project.host) := by
        intro finding member
        obtain ⟨imbalance, _, rfl⟩ := List.mem_map.mp member
        simp only [report, Traced.value_bind, looked]
        rfl
      have placed := Traced.mapState_of_still (report store .syntactic) _ still
      have written : ((DelimiterEngine.findings file snapshot.text).map fun finding =>
          Diagnostic.compiler .syntactic ⟨finding.code⟩ (finding.message.flatten messageSeparator)
            (finding.location.map fun location => snapshot.positionAt location.start)) =
          syntacticEntries snapshot := by
        simp [DelimiterEngine.findings, syntacticEntries]
      simp only [onHost, Option.map_some, Option.getD_some, Traced.value_bind, Traced.value_pure,
        placed, written]

/-- A stage whose query leaves the project alone adds its diagnostics to those of the others. -/
theorem runStages_cons (stage : Stage Unit) {rest : List (Stage Unit)}
    {found : List EngineDiagnostic} {reported others : List Diagnostic}
    (consulted : (project.consult store stage.query file (stage.inquiry file)).value =
      (.ok found, project))
    (placed : (project.onHost (Traced.mapState (report store stage.kind) found)).value =
      (reported, project))
    (later : (runStages store file rest project).value = (.ok others, project)) :
    (runStages store file (stage :: rest) project).value = (.ok (reported ++ others), project) := by
  rw [runStages, Traced.value_bind, consulted]
  simp only [Traced.value_bind, placed, later]
  rfl

/-- On a known file the stages report what is out of balance and nothing else. -/
theorem runStages_value (knows : project.Knows store file) :
    (runStages store file (stages DelimiterEngine.engine) project).value =
      (.ok (project.entries file), project) := by
  have last : (runStages store file [⟨.syntactic, .syntactic, DelimiterEngine.syntactic⟩]
      project).value = (.ok (project.entries file ++ []), project) :=
    runStages_cons _ (consult_syntactic knows _) (report_findings knows) rfl
  rw [List.append_nil] at last
  have still : ∀ kind, (project.onHost (Traced.mapState (report store kind) [])).value =
      ([], project) := fun _ => rfl
  have semantic := runStages_cons ⟨.semantic, .semantic, DelimiterEngine.nothing⟩
    (consult_nothing store .semantic file project) (still _) last
  exact runStages_cons ⟨.declaration, .declaration, DelimiterEngine.nothing⟩
    (consult_nothing store .declaration file project) (still _) semantic

/-- On a known file the linter runs on the snapshot. -/
theorem runLinter_value (knows : project.Knows store file) :
    (project.runLinter store file).value =
      ((project.linter.map fun linter => ((project.cached? file).map linter.run).getD []).getD [],
        project) := by
  rw [runLinter]
  cases project.linter with
  | none => rfl
  | some linter =>
      simp only [onHost, Traced.value_bind, Traced.value_pure, knows.snapshot_value]
      rfl

/-- A diagnostics request changes its project by setting the content of the file, unless the
configuration is broken, and reports on the content that the file has then. -/
theorem diagnostics_value (store : SourceStore) (file : SourcePath) (code : String)
    (project : Project Unit) :
    (project.diagnostics store DelimiterEngine.engine file code).value =
      if project.configurationErrors.isEmpty then
        let served := project.withContent store file code
        let entries := served.entries file
        (.ok (if entries.isEmpty then
            ⟨(served.linter.map fun linter =>
              ((served.cached? file).map linter.run).getD []).getD []⟩
          else ⟨entries⟩), served)
      else (.ok ⟨project.configurationErrors⟩, project) := by
  rw [diagnostics]
  split
  · have knows := project.knows_withContent store file code
    have pushed : (project.onHost (Host.setContent store file code)).value.2 =
        project.withContent store file code := rfl
    simp only [Traced.value_bind, pushed, runStages_value knows]
    cases found : (project.withContent store file code).entries file with
    | nil => simp only [Traced.value_bind, runLinter_value knows]; rfl
    | cons first rest => rfl
  · rfl

/-- If the content that is set is the capture of a text, the report is the stateless one on that
text. -/
theorem diagnostics_report {text : Option String} {code : String} {spelling : SourcePath}
    (content : (project.withContent store file code).cached? file =
      text.map (Snapshot.capture spelling)) :
    (project.diagnostics store DelimiterEngine.engine file code).value.1 =
      .ok (statelessReport project.configurationErrors project.linter spelling text) := by
  have linter : (project.withContent store file code).linter = project.linter := rfl
  rw [diagnostics_value]
  unfold statelessReport
  split
  · simp only [entries, content, linter]
    cases text with
    | none => cases project.linter <;> rfl
    | some text =>
        simp only [Option.map_some, Option.getD_some]
        split
        · cases project.linter <;> rfl
        · rfl
  · rfl

/-- The candidates for completing a name at an offset of a known file, unless the offset is beyond
its end. -/
def candidates (file : SourcePath) (offset : Nat) (project : Project Unit) :
    Except EngineError CompletionReport :=
  match project.cached? file with
  | none => .ok (.ofEntries [])
  | some snapshot =>
      if snapshot.length < offset then .error (.offsetOutOfRange file offset)
      else .ok (.ofEntries ((DelimiterEngine.names snapshot.text offset).map
        DelimiterEngine.candidate))

/-- A completion request changes its project in the same way, and it is answered from the content
that the file has then. -/
theorem completions_value (store : SourceStore) (file : SourcePath) (code : String)
    (offset : Nat) (project : Project Unit) :
    (project.completions store DelimiterEngine.engine file code offset).value =
      if project.configurationErrors.isEmpty then
        let served := project.withContent store file code
        (served.candidates file offset, served)
      else (.ok ⟨[]⟩, project) := by
  rw [completions]
  split
  · have knows := project.knows_withContent store file code
    have looked : ((project.withContent store file code).onHost (Host.snapshot store file)).value =
        ((project.withContent store file code).cached? file,
          project.withContent store file code) := by
      simp only [onHost, Traced.value_bind, Traced.value_pure, knows.snapshot_value]
    have pushed : (project.onHost (Host.setContent store file code)).value.2 =
        project.withContent store file code := rfl
    simp only [Traced.value_bind, pushed, looked, candidates]
    have consulted := consult_completions knows (.completions offset) offset
    cases found : (project.withContent store file code).cached? file with
    | none => simp [consulted, found]
    | some snapshot =>
      by_cases beyond : snapshot.length < offset
      · simp [beyond]
      · simp [beyond, consulted, found]
  · rfl

/-- A completion request changes its project in the same way, whether or not it is answered. -/
theorem completions_project (store : SourceStore) (file : SourcePath) (code : String)
    (offset : Nat) (project : Project Unit) :
    (project.completions store DelimiterEngine.engine file code offset).value.2 =
      if project.configurationErrors.isEmpty then project.withContent store file code
      else project := by
  rw [completions_value]
  split <;> rfl

end Project

end ScriptAnalysis
