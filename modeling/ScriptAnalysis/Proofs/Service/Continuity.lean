import ScriptAnalysis.Proofs.Service.Pipeline
import ScriptAnalysis.Proofs.Service.Registry

/-!
# What stays the same in a project

A project keeps its root and its engine as long as it lives. The engine is never built anew: its
state moves by the engine's own queries and by nothing else (`Engine.Advances`), whatever is
asked of the project and whatever configuration it takes on (`Project.Proceeds`).
-/

namespace ScriptAnalysis

variable {σ α : Type} {store : SourceStore} {engine : Engine σ}

/-- The state comes from an earlier one by queries of the engine, put to any hosts. -/
inductive Engine.Advances (engine : Engine σ) (start : σ) : σ → Prop where
  | still : Advances engine start start
  | found {state : σ} (before : Advances engine start state) {stage : Project.Stage σ}
      (own : stage ∈ Project.stages engine) (store : SourceStore) (file : SourcePath)
      (host : Host) :
      Advances engine start ((stage.inquiry file state).run store host).value.1.2
  | completed {state : σ} (before : Advances engine start state) (store : SourceStore)
      (file : SourcePath) (offset : Nat) (host : Host) :
      Advances engine start ((engine.completions file offset state).run store host).value.1.2

theorem Engine.Advances.trans {first second third : σ} (before : engine.Advances first second)
    (after : engine.Advances second third) : engine.Advances first third := by
  induction after with
  | still => exact before
  | found _ own store file host inductionHypothesis =>
      exact inductionHypothesis.found own store file host
  | completed _ store file offset host inductionHypothesis =>
      exact inductionHypothesis.completed store file offset host

namespace Host

theorem root_answer (store : SourceStore) (host : Host) (question : HostQuestion) :
    (host.answer store question).value.2.root = host.root := by
  cases question <;> rfl

/-- Taking note of a changed path. -/
def changed (store : SourceStore) (kind : ChangeKind) (path : SourcePath) (host : Host) :
    Traced (Bool × Host) :=
  match kind with
  | .file => host.fileChanged store path
  | .directory => host.directoryChanged store path

theorem root_changed (store : SourceStore) (kind : ChangeKind) (path : SourcePath) (host : Host) :
    (host.changed store kind path).value.2.root = host.root := by
  cases kind <;> rfl

theorem settings_changed (store : SourceStore) (kind : ChangeKind) (path : SourcePath)
    (host : Host) : (host.changed store kind path).value.2.settings = host.settings := by
  cases kind <;> rfl

theorem root_preload (store : SourceStore) (files : List SourcePath) (host : Host) :
    (host.preload store files).value.2.root = host.root := by
  induction files generalizing host with
  | nil => rfl
  | cons file rest inductionHypothesis =>
      rw [preload, Traced.value_bind, Traced.value_bind, Traced.value_pure, inductionHypothesis]
      rfl

end Host

/-- No inquiry moves the host that it asks to another root. -/
theorem Inquiry.root_run (store : SourceStore) (inquiry : Inquiry α) (host : Host) :
    (inquiry.run store host).value.2.root = host.root := by
  induction inquiry generalizing host with
  | done result => rfl
  | note event next inductionHypothesis => exact inductionHypothesis host
  | ask question next inductionHypothesis =>
      rw [run, Traced.value_bind, inductionHypothesis, Host.root_answer]

namespace Project

/-- The project has the root of an earlier one and goes on with its engine. -/
structure Proceeds (engine : Engine σ) (before after : Project σ) : Prop where
  root : after.root = before.root
  engine : engine.Advances before.engineState after.engineState

variable {before after later : Project σ}

theorem proceeds_refl (project : Project σ) : Proceeds engine project project :=
  ⟨rfl, .still⟩

theorem Proceeds.trans (first : Proceeds engine before after)
    (second : Proceeds engine after later) : Proceeds engine before later :=
  ⟨second.root.trans first.root, first.engine.trans second.engine⟩

theorem proceeds_reconfigure (store : SourceStore) (resolved : ResolvedProject)
    (project : Project σ) :
    Proceeds engine project (project.reconfigure store resolved).value :=
  ⟨Host.root_preload store resolved.rootFiles _, .still⟩

theorem root_report (store : SourceStore) (kind : DiagnosticKind) (finding : EngineDiagnostic)
    (host : Host) : (report store kind finding host).value.2.root = host.root := by
  rw [report]
  split <;> rfl

/-- A project proceeds with every step of a request. -/
def proceedsInvariant (store : SourceStore) (engine : Engine σ) (file : SourcePath)
    (code : String) (start : Project σ) : PipelineInvariant store engine file code where
  Holds project := Proceeds engine start project
  Fits _ := True
  pushed proceeds := ⟨proceeds.root, proceeds.engine⟩
  looked proceeds := ⟨proceeds.root, proceeds.engine⟩
  consulted stage own proceeds :=
    ⟨fun _ _ _ _ => trivial,
      ((stage.inquiry file _).root_run store _).trans proceeds.root,
      proceeds.engine.found own store file _⟩
  reported kind finding _ proceeds :=
    ⟨(root_report store kind finding _).trans proceeds.root, proceeds.engine⟩
  completed offset proceeds :=
    ⟨((engine.completions file offset _).root_run store _).trans proceeds.root,
      proceeds.engine.completed store file offset _⟩

theorem proceeds_diagnostics (store : SourceStore) (engine : Engine σ) (file : SourcePath)
    (code : String) (project : Project σ) :
    Proceeds engine project (project.diagnostics store engine file code).value.2 :=
  (proceedsInvariant store engine file code project).diagnostics (proceeds_refl project)

theorem proceeds_completions (store : SourceStore) (engine : Engine σ) (file : SourcePath)
    (code : String) (offset : Nat) (project : Project σ) :
    Proceeds engine project (project.completions store engine file code offset).value.2 :=
  (proceedsInvariant store engine file code project).completions offset (proceeds_refl project)

/-- A project proceeds when its root is resolved anew, whether or not that succeeds. -/
theorem proceeds_resolvedInTurn (backend : Backend σ) (key : SourcePath) (roots : List SourcePath)
    (project : Project σ) : Proceeds engine project (project.resolvedInTurn backend key roots) := by
  induction roots generalizing project with
  | nil => exact proceeds_refl project
  | cons root rest inductionHypothesis =>
      rw [resolvedInTurn, List.foldl_cons, ← resolvedInTurn]
      refine Proceeds.trans ?_ (inductionHypothesis _)
      split
      · rw [resolvedAgain]
        split
        · exact proceeds_refl project
        · exact proceeds_reconfigure backend.store _ project
      · exact proceeds_refl project

end Project

end ScriptAnalysis
