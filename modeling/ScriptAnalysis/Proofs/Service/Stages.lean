import ScriptAnalysis.Engine.Scripted
import ScriptAnalysis.Proofs.Service.Configuration

/-!
# The stages of a request

`Project.Diagnosed` is what a diagnostics request may do, told without the pipeline: which
queries are put to the engine, in which order and where they end, which entry each finding
becomes, and when the linter has its turn. The pipeline does exactly that
(`Project.diagnosed_diagnostics`), so the findings of a report are never mixed
(`Registry.Reachable.report_kinds`). Nothing is assumed of the engine, which may fail anywhere,
ask its host for anything and place a finding in any file.
-/

namespace ScriptAnalysis

variable {σ : Type} {store : SourceStore} {engine : Engine σ} {file : SourcePath} {code : String}

namespace Report

/-- All findings are of one kind. -/
def IsOf (kind : DiagnosticKind) (report : Report) : Prop :=
  ∀ diagnostic ∈ report.errors, diagnostic.kind = kind

/-- The findings are those of the three stages of an engine in their order. -/
def IsStaged (report : Report) : Prop :=
  ∃ declared semantic syntactic : Nat,
    report.errors.map Diagnostic.kind = List.replicate declared .declaration ++
      (List.replicate semantic .semantic ++ List.replicate syntactic .syntactic)

end Report

namespace Project

/-- The diagnostic that a finding of a stage becomes. -/
def entry (kind : DiagnosticKind) (finding : EngineDiagnostic) (position : Option Position) :
    Diagnostic where
  kind := kind
  message := "TS" ++ toString finding.code.toNat ++ ": " ++ finding.message.flatten " "
  position := position

/-- The entries for the findings of a stage, one after the other. A finding with a location has
its position in the snapshot that the host serves for the located file. Serving it may read
the file, so the host is handed on. -/
inductive Placed (store : SourceStore) (kind : DiagnosticKind) :
    Host → List EngineDiagnostic → List Diagnostic → List Event → Host → Prop where
  | nothing {host} : Placed store kind host [] [] [] host
  | unlocated {host last finding rest entries events}
      (unplaced : finding.location = none)
      (later : Placed store kind host rest entries events last) :
      Placed store kind host (finding :: rest) (entry kind finding none :: entries) events last
  | located {host next last finding location snapshot serving rest entries events}
      (place : finding.location = some location)
      (served : host.snapshot store location.file = ⟨(snapshot, next), serving⟩)
      (later : Placed store kind next rest entries events last) :
      Placed store kind host (finding :: rest)
        (entry kind finding (snapshot.map fun snapshot => snapshot.positionAt location.start) ::
          entries) (serving ++ events) last

/-- The calls of an engine with what each one is answered, and the entries for all findings.
The calls end with the first failure. -/
inductive Consulted (store : SourceStore) (file : SourcePath) :
    Project σ → List (Stage σ × Except EngineError (List EngineDiagnostic)) →
      List Diagnostic → List Event → Project σ → Prop where
  | finished {project} : Consulted store file project [] [] [] project
  | failed {project last stage error events}
      (asked : project.consult store stage.query file (stage.inquiry file) =
        ⟨(.error error, last), events⟩) :
      Consulted store file project [(stage, .error error)] [] events last
  | answered {project next last stage findings host calls entries others asking placing events}
      (asked : project.consult store stage.query file (stage.inquiry file) =
        ⟨(.ok findings, next), asking⟩)
      (placed : Placed store stage.kind next.host findings entries placing host)
      (later : Consulted store file { next with host := host } calls others events last) :
      Consulted store file project ((stage, .ok findings) :: calls) (entries ++ others)
        (asking ++ placing ++ events) last

/-- How a diagnostics request goes: its answer with the project and the events it leaves. -/
inductive Diagnosed (store : SourceStore) (engine : Engine σ) (file : SourcePath)
    (code : String) (project : Project σ) :
    Traced (Except EngineError Report × Project σ) → Prop where
  /-- Errors of the configuration are the whole answer, and nothing else happens. -/
  | misconfigured
      (broken : project.configurationErrors ≠ []) :
      Diagnosed store engine file code project
        (pure (.ok ⟨project.configurationErrors⟩, project))
  /-- After the push, the stages before one are answered and that one fails. The later stages
  are not called. -/
  | failed {version pushed asked pushing asking entries before stage after error}
      {answers : List (List EngineDiagnostic)}
      (sound : project.configurationErrors = [])
      (push : project.onHost (Host.setContent store file code) = ⟨(version, pushed), pushing⟩)
      (order : stages engine = before ++ stage :: after)
      (count : answers.length = before.length)
      (consulted : Consulted store file pushed
        (before.zip (answers.map .ok) ++ [(stage, .error error)]) entries asking asked) :
      Diagnosed store engine file code project ⟨(.error error, asked), pushing ++ asking⟩
  /-- After the push, all three stages are answered and one at least has findings. Their entries
  are the report, and the linter is not run. -/
  | reported {version pushed asked pushing asking entries declared semantic syntactic}
      (sound : project.configurationErrors = [])
      (push : project.onHost (Host.setContent store file code) = ⟨(version, pushed), pushing⟩)
      (consulted : Consulted store file pushed
        ((stages engine).zip [.ok declared, .ok semantic, .ok syntactic]) entries asking asked)
      (found : declared ≠ [] ∨ semantic ≠ [] ∨ syntactic ≠ []) :
      Diagnosed store engine file code project ⟨(.ok ⟨entries⟩, asked), pushing ++ asking⟩
  /-- All three stages are without findings and there is no linter. -/
  | clean {version pushed asked pushing asking}
      (sound : project.configurationErrors = [])
      (push : project.onHost (Host.setContent store file code) = ⟨(version, pushed), pushing⟩)
      (consulted : Consulted store file pushed
        ((stages engine).zip [.ok [], .ok [], .ok []]) [] asking asked)
      (unlinted : project.linter = none) :
      Diagnosed store engine file code project ⟨(.ok ⟨[]⟩, asked), pushing ++ asking⟩
  /-- All three stages are without findings, and the linter runs on the content of the file, if
  there is any. -/
  | linted {version pushed asked last pushing asking serving linter snapshot}
      (sound : project.configurationErrors = [])
      (push : project.onHost (Host.setContent store file code) = ⟨(version, pushed), pushing⟩)
      (consulted : Consulted store file pushed
        ((stages engine).zip [.ok [], .ok [], .ok []]) [] asking asked)
      (linted : project.linter = some linter)
      (served : asked.onHost (Host.snapshot store file) = ⟨(snapshot, last), serving⟩) :
      Diagnosed store engine file code project
        ⟨(.ok ⟨(snapshot.map linter.run).getD []⟩, last), pushing ++ asking ++ serving⟩

/-! ### What the relations say -/

/-- Every finding has its entry, of the kind of the stage. -/
theorem Placed.kinds {kind : DiagnosticKind} {host last : Host}
    {findings : List EngineDiagnostic} {entries : List Diagnostic} {events : List Event}
    (placed : Placed store kind host findings entries events last) :
    entries.map Diagnostic.kind = List.replicate findings.length kind := by
  induction placed with
  | nothing => rfl
  | unlocated _ _ inductionHypothesis | located _ _ _ inductionHypothesis =>
      rw [List.map_cons, inductionHypothesis, List.length_cons, List.replicate_succ, entry]

/-- The kinds that the findings of an answered call lead to. -/
def calledKinds (call : Stage σ × Except EngineError (List EngineDiagnostic)) :
    List DiagnosticKind :=
  match call.2 with
  | .ok findings => List.replicate findings.length call.1.kind
  | .error _ => []

/-- A query leaves the linter as it was. -/
theorem linter_consult {α : Type} {query : EngineQuery} {inquiry : σ → EngineAnswer σ α}
    {project next : Project σ} {answer : Except EngineError α} {events : List Event}
    (asked : project.consult store query file inquiry = ⟨(answer, next), events⟩) :
    next.linter = project.linter := by
  have same : next = (project.consult store query file inquiry).value.2 := by rw [asked]
  rw [same]
  rfl

namespace Consulted

variable {project last : Project σ} {entries : List Diagnostic} {events : List Event}
  {calls : List (Stage σ × Except EngineError (List EngineDiagnostic))}

/-- The entries stand in the order of the calls. -/
theorem kinds (consulted : Consulted store file project calls entries events last) :
    entries.map Diagnostic.kind = calls.flatMap calledKinds := by
  induction consulted with
  | finished => rfl
  | failed asked => rfl
  | answered asked placed later inductionHypothesis =>
      rw [List.map_append, placed.kinds, inductionHypothesis, List.flatMap_cons, calledKinds]

/-- The kinds of the entries where all three stages of an engine are answered. -/
theorem kinds_stages {declared semantic syntactic : List EngineDiagnostic}
    (consulted : Consulted store file project
      ((stages engine).zip [.ok declared, .ok semantic, .ok syntactic]) entries events last) :
    entries.map Diagnostic.kind = List.replicate declared.length .declaration ++
      (List.replicate semantic.length .semantic ++
        List.replicate syntactic.length .syntactic) := by
  have kinds := consulted.kinds
  simpa [stages, calledKinds] using kinds

/-- The calls leave the linter as it was. -/
theorem linter_eq (consulted : Consulted store file project calls entries events last) :
    last.linter = project.linter := by
  induction consulted with
  | finished => rfl
  | failed asked => exact linter_consult asked
  | answered asked placed later inductionHypothesis =>
      have unchanged := linter_consult asked
      rw [inductionHypothesis, ← unchanged]

end Consulted

/-! ### The pipeline -/

/-- The host places findings as the relation says. -/
theorem placed_mapState (store : SourceStore) (kind : DiagnosticKind)
    (findings : List EngineDiagnostic) (host : Host) :
    let outcome := Traced.mapState (report store kind) findings host
    Placed store kind host findings outcome.value.1 outcome.events outcome.value.2 := by
  induction findings generalizing host with
  | nil => exact .nothing
  | cons finding rest inductionHypothesis =>
      cases place : finding.location with
      | none =>
          have reported : report store kind finding host =
              pure (entry kind finding none, host) := by
            rw [report, place]
            rfl
          simp only [Traced.mapState, reported, pure_bind, Traced.value_bind, Traced.events_bind,
            Traced.value_pure, Traced.events_pure, List.append_nil]
          exact .unlocated place (inductionHypothesis host)
      | some location =>
          have reported : report store kind finding host =
              (host.snapshot store location.file >>= fun served =>
                pure (entry kind finding
                  (served.1.map (·.positionAt location.start)), served.2)) := by
            rw [report, place]
            rfl
          simp only [Traced.mapState, reported, Traced.value_bind, Traced.events_bind,
            Traced.value_pure, Traced.events_pure, List.append_nil]
          exact .located place rfl (inductionHypothesis _)

/-- A stage that is answered adds its entries to those of the stages after it. -/
theorem runStages_answered {stage : Stage σ} {rest : List (Stage σ)} {project next last : Project σ}
    {findings : List EngineDiagnostic} {entries : List Diagnostic} {host : Host}
    {answer : Except EngineError (List Diagnostic)} {asking placing events : List Event}
    (asked : project.consult store stage.query file (stage.inquiry file) =
      ⟨(.ok findings, next), asking⟩)
    (placed : Traced.mapState (report store stage.kind) findings next.host =
      ⟨(entries, host), placing⟩)
    (later : runStages store file rest { next with host := host } = ⟨(answer, last), events⟩) :
    runStages store file (stage :: rest) project =
      ⟨(answer.map (entries ++ ·), last), asking ++ placing ++ events⟩ := by
  have reported : next.onHost (Traced.mapState (report store stage.kind) findings) =
      ⟨(entries, { next with host := host }), placing⟩ := by
    rw [onHost, placed]
    apply Traced.ext <;> simp
  rw [runStages, asked]
  cases answer <;> apply Traced.ext <;> simp [reported, later, Except.map]

/-- Running stages calls them in turn: either up to the first that fails, or all of them. -/
theorem consulted_runStages (store : SourceStore) (file : SourcePath) (stages : List (Stage σ))
    (project : Project σ) :
    (∃ before stage after, ∃ answers : List (List EngineDiagnostic),
      ∃ error entries events last,
        stages = before ++ stage :: after ∧ answers.length = before.length ∧
        Consulted store file project (before.zip (answers.map .ok) ++ [(stage, .error error)])
          entries events last ∧
        runStages store file stages project = ⟨(.error error, last), events⟩) ∨
    ∃ answers : List (List EngineDiagnostic), ∃ entries events last,
      answers.length = stages.length ∧
      Consulted store file project (stages.zip (answers.map .ok)) entries events last ∧
      runStages store file stages project = ⟨(.ok entries, last), events⟩ := by
  induction stages generalizing project with
  | nil => exact .inr ⟨[], [], [], project, rfl, .finished, rfl⟩
  | cons stage rest inductionHypothesis =>
      cases asked : project.consult store stage.query file (stage.inquiry file) with
      | mk answer asking =>
          obtain ⟨answer, next⟩ := answer
          cases answer with
          | error error =>
              refine .inl ⟨[], stage, rest, [], error, [], asking, next, rfl, rfl,
                .failed asked, ?_⟩
              rw [runStages, asked]
              apply Traced.ext <;> simp
          | ok findings =>
              have placed := placed_mapState store stage.kind findings next.host
              obtain ⟨before, failing, after, answers, error, others, events, last, shape, count,
                  later, failed⟩ | ⟨answers, others, events, last, count, later, ended⟩ :=
                inductionHypothesis { next with
                  host := (Traced.mapState (report store stage.kind) findings next.host).value.2 }
              · exact .inl ⟨stage :: before, failing, after, findings :: answers, error, _, _,
                  last, congrArg _ shape, congrArg _ count, .answered asked placed later,
                  runStages_answered asked rfl failed⟩
              · exact .inr ⟨findings :: answers, _, _, last, congrArg _ count,
                  .answered asked placed later, runStages_answered asked rfl ended⟩

/-- Where no stage has findings, the linter has its turn. -/
theorem diagnosed_runLinter {project pushed asked : Project σ} {version : Option ContentHash}
    {pushing asking : List Event} (sound : project.configurationErrors = [])
    (push : project.onHost (Host.setContent store file code) = ⟨(version, pushed), pushing⟩)
    (consulted : Consulted store file pushed
      ((stages engine).zip [.ok [], .ok [], .ok []]) [] asking asked) :
    let outcome := asked.runLinter store file
    Diagnosed store engine file code project
      ⟨(.ok ⟨outcome.value.1⟩, outcome.value.2), pushing ++ asking ++ outcome.events⟩ := by
  intro outcome
  have unchanged : asked.linter = project.linter := by
    have same : pushed = (project.onHost (Host.setContent store file code)).value.2 := by rw [push]
    rw [consulted.linter_eq, same]
    rfl
  cases same : project.linter with
  | none =>
      have skipped : outcome = pure ([], asked) := by
        simp only [outcome, runLinter, unchanged, same]
      rw [skipped]
      simpa using Diagnosed.clean sound push consulted same
  | some linter =>
      cases served : asked.onHost (Host.snapshot store file) with
      | mk found serving =>
          have run : outcome = ⟨((found.1.map linter.run).getD [], found.2), serving⟩ := by
            simp only [outcome, runLinter, unchanged, same, served]
            apply Traced.ext <;> simp
          rw [run]
          exact .linted sound push consulted same served

/-- A request goes as the relation says. -/
theorem diagnosed_diagnostics (store : SourceStore) (engine : Engine σ) (file : SourcePath)
    (code : String) (project : Project σ) :
    Diagnosed store engine file code project (project.diagnostics store engine file code) := by
  rw [diagnostics]
  split
  case isFalse broken =>
    exact .misconfigured (mt List.isEmpty_iff.mpr broken)
  case isTrue sound =>
    rw [List.isEmpty_iff] at sound
    cases push : project.onHost (Host.setContent store file code) with
    | mk content pushing =>
        obtain ⟨version, pushed⟩ := content
        obtain ⟨before, stage, after, answers, error, entries, asking, asked, order, count,
            consulted, ran⟩ | ⟨answers, entries, asking, asked, count, consulted, ran⟩ :=
          consulted_runStages store file (stages engine) pushed
        · convert Diagnosed.failed sound push order count consulted using 1
          apply Traced.ext <;> simp [ran]
        · obtain ⟨declared, semantic, syntactic, rfl⟩ := List.length_eq_three.mp count
          have kinds := consulted.kinds_stages
          cases entries with
          | nil =>
              simp only [List.map_nil, List.nil_eq, List.append_eq_nil_iff,
                List.replicate_eq_nil_iff, List.length_eq_zero_iff] at kinds
              obtain ⟨rfl, rfl, rfl⟩ := kinds
              convert diagnosed_runLinter sound push consulted using 1
              apply Traced.ext <;> simp [ran]
          | cons first rest =>
              have found : declared ≠ [] ∨ semantic ≠ [] ∨ syntactic ≠ [] := by
                by_contra nothing
                push Not at nothing
                obtain ⟨rfl, rfl, rfl⟩ := nothing
                cases kinds
              convert Diagnosed.reported sound push consulted found using 1
              apply Traced.ext <;> simp [ran]

/-- The linter finds nothing but lint. -/
theorem isOf_lint_run (linter : Linter) (snapshot : Option Snapshot) :
    Report.IsOf .lint ⟨(snapshot.map linter.run).getD []⟩ := by
  intro diagnostic member
  cases snapshot with
  | none => cases member
  | some snapshot =>
      obtain ⟨_, _, rfl⟩ := List.mem_map.mp member
      rfl

/-- The kinds of a report show which part of the pipeline made it. -/
theorem Diagnosed.kinds {project : Project σ}
    {outcome : Traced (Except EngineError Report × Project σ)} {report : Report}
    (diagnosed : Diagnosed store engine file code project outcome)
    (answered : outcome.value.1 = .ok report) :
    (project.configurationErrors ≠ [] ∧ report.errors = project.configurationErrors) ∨
      report.IsStaged ∨ report.IsOf .lint := by
  cases diagnosed with
  | misconfigured broken =>
      cases answered
      exact .inl ⟨broken, rfl⟩
  | failed => cases answered
  | reported _ _ consulted _ =>
      cases answered
      exact .inr (.inl ⟨_, _, _, consulted.kinds_stages⟩)
  | clean =>
      cases answered
      exact .inr (.inl ⟨0, 0, 0, rfl⟩)
  | linted =>
      cases answered
      exact .inr (.inr (isOf_lint_run _ _))

/-- For every project, engine, file and code, a diagnostics request goes as `Diagnosed` says.
Hence a report has the errors of the configuration, or what the three stages found in their
order, or what the linter found. -/
theorem diagnostics_follow_stages (store : SourceStore) (engine : Engine σ) (file : SourcePath)
    (code : String) (project : Project σ) :
    Diagnosed store engine file code project (project.diagnostics store engine file code) ∧
      ∀ report, (project.diagnostics store engine file code).value.1 = .ok report →
        (project.configurationErrors ≠ [] ∧ report.errors = project.configurationErrors) ∨
          report.IsStaged ∨ report.IsOf .lint := by
  have diagnosed := diagnosed_diagnostics store engine file code project
  exact ⟨diagnosed, fun report answered => diagnosed.kinds answered⟩

/-- In a text with a marker for each stage, the findings stand in the order of the stages and not
in that of the text. -/
theorem diagnostics_follow_stages_all_markers :
    let project : Project Unit :=
      ⟨Host.create ⟨"/p"⟩ CompilationSettings.empty HostOptions.standard, (), none, []⟩
    let report : Report := ⟨[
      ⟨.declaration, "TS4025: Exported variable has or is using private name.", some ⟨0, 24⟩⟩,
      ⟨.semantic, "TS2304: Cannot find name 'UNDEFINED'.", some ⟨0, 14⟩⟩,
      ⟨.syntactic, "TS1005: ';' expected.", some ⟨0, 0⟩⟩]⟩
    (project.diagnostics Tree.empty.store ScriptedEngine.engine ⟨"/p/a.ts"⟩
        "SYNTAX_ERROR; UNDEFINED DECLARE_ERROR").value.1 = .ok report ∧
      report.IsStaged := by
  intro project report
  have answered : (project.diagnostics Tree.empty.store ScriptedEngine.engine ⟨"/p/a.ts"⟩
      "SYNTAX_ERROR; UNDEFINED DECLARE_ERROR").value.1 = .ok report := by decide +kernel
  obtain ⟨_, kinds⟩ := diagnostics_follow_stages Tree.empty.store ScriptedEngine.engine
    ⟨"/p/a.ts"⟩ "SYNTAX_ERROR; UNDEFINED DECLARE_ERROR" project
  obtain ⟨broken, _⟩ | staged | linted := kinds report answered
  · exact absurd rfl broken
  · exact ⟨answered, staged⟩
  · exact absurd (linted _ List.mem_cons_self) (by decide)

end Project

/-- What is wrong with a configuration is of its own kind. -/
theorem isOf_configuration_resolveProject (store : SourceStore) (root : SourcePath) :
    Report.IsOf .configuration ⟨(resolveProject store root).value.errors⟩ := by
  rw [resolveProject_value]
  cases store.config root with
  | error error =>
      intro diagnostic member
      rw [List.mem_singleton.mp member]
      rfl
  | ok config =>
      intro diagnostic member
      obtain ⟨_, _, rfl⟩ := List.mem_map.mp member
      rfl

namespace Registry

variable {registry : Registry σ} {root : SourcePath}

/-- Every project has the configuration that some store held for its root. -/
def IsConfigured (registry : Registry σ) : Prop :=
  ∀ entry ∈ registry.projects.entries,
    ∃ store, entry.2.configuration = Project.configurationAt store entry.1

namespace IsConfigured

theorem obtained (configured : registry.IsConfigured) (wellFormed : registry.WellFormed)
    (store : SourceStore) (engine : Engine σ) (root : SourcePath) :
    ∃ before, (registry.obtained store engine root).configuration =
      Project.configurationAt before root.normalize := by
  rw [Registry.obtained]
  split
  · next project found =>
      exact configured _ ((wellFormed.find?_iff (SourcePath.isPlain_normalize root)).mp found)
  · exact ⟨store, Project.configuration_create store _ _ root.normalize⟩

theorem notify (configured : registry.IsConfigured) (wellFormed : registry.WellFormed)
    (notification : FileChangeNotification) :
    (registry.notify (Backend.overStore store engine) notification).value.2.IsConfigured := by
  rw [notify_value wellFormed]
  intro entry member
  obtain ⟨old, there, absorbed⟩ := mem_mapProjects.mp member
  rw [absorbed, Project.configuration_absorbAll]
  split
  · exact ⟨store, rfl⟩
  · exact configured _ there

/-- A request that leaves the configuration of its project as it was keeps all projects
configured. -/
theorem onProject {α : Type} (configured : registry.IsConfigured)
    (wellFormed : registry.WellFormed)
    {operation : Project σ → Traced (Except EngineError α × Project σ)}
    (keeps : ∀ project, (operation project).value.2.configuration = project.configuration) :
    (registry.onProject (Backend.overStore store engine) root operation).value.2.IsConfigured := by
  intro entry member
  rw [mem_onProject_iff wellFormed] at member
  split at member
  · next same =>
      rw [member, keeps, same]
      exact configured.obtained wellFormed store engine root
  · exact configured entry member

end IsConfigured

/-- Only resolution configures the projects of a service. -/
theorem Reachable.isConfigured (reachable : Reachable engine registry) :
    registry.IsConfigured := by
  induction reachable with
  | empty options =>
      intro entry member
      cases member
  | notify before store notification inductionHypothesis =>
      exact inductionHypothesis.notify before.wellFormed notification
  | diagnostics before store root file code inductionHypothesis =>
      rw [diagnostics_value]
      exact inductionHypothesis.onProject before.wellFormed
        (Project.configuration_diagnostics store engine file.normalize code)
  | completions before store root file code offset inductionHypothesis =>
      rw [completions_value]
      exact inductionHypothesis.onProject before.wellFormed
        (Project.configuration_completions store engine file.normalize code offset)

/-- A report of a service has findings of the configuration only, or of the stages of the engine
in their order, or of the linter only. -/
theorem Reachable.report_kinds (reachable : Reachable engine registry) {report : Report}
    (answered : (registry.diagnostics (Backend.overStore store engine) root file code).value.1 =
      .ok report) :
    report.IsOf .configuration ∨ report.IsStaged ∨ report.IsOf .lint := by
  have obtained := reachable.isConfigured.obtained reachable.wellFormed store engine root
  rw [diagnostics_value, onProject_value] at answered
  generalize registry.obtained store engine root = project at obtained answered
  obtain ⟨before, configured⟩ := obtained
  have errors : project.configurationErrors =
      (resolveProject before root.normalize).value.errors :=
    congrArg (fun configuration => configuration.2.2) configured
  cases answer : (project.diagnostics store engine file.normalize code).value.1 with
  | error error =>
      rw [answer] at answered
      cases answered
  | ok found =>
      rw [answer] at answered
      cases answered
      have diagnosed := project.diagnosed_diagnostics store engine file.normalize code
      obtain ⟨_, same⟩ | turn := diagnosed.kinds answer
      · refine .inl fun diagnostic member => ?_
        rw [same, errors] at member
        exact isOf_configuration_resolveProject before root.normalize diagnostic member
      · exact .inr turn

end Registry

end ScriptAnalysis
