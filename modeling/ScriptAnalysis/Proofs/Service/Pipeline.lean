import ScriptAnalysis.Proofs.Traced
import ScriptAnalysis.Service.Pipeline

/-!
# What a request keeps

A request takes a project through a push, look-ups of snapshots, queries of the engine and the
search for positions. A property of projects that survives each of these steps
(`PipelineInvariant`) survives the whole request, whatever the engine finds and wherever
it fails.
-/

namespace ScriptAnalysis

variable {σ : Type} {store : SourceStore} {engine : Engine σ} {file : SourcePath} {code : String}

namespace Project

/-- A property of projects that every step of a request for a file keeps. A query also says
something of each of its findings, which the search for positions may rely on. -/
structure PipelineInvariant (store : SourceStore) (engine : Engine σ) (file : SourcePath)
    (code : String) where
  Holds : Project σ → Prop
  Fits : EngineDiagnostic → Prop
  pushed : ∀ {project}, Holds project →
    Holds (project.onHost (Host.setContent store file code)).value.2
  looked : ∀ {project}, Holds project → Holds (project.onHost (Host.snapshot store file)).value.2
  consulted : ∀ {project}, ∀ stage ∈ stages engine, Holds project →
    (∀ findings, (project.consult store stage.query file (stage.inquiry file)).value.1 =
        .ok findings → ∀ finding ∈ findings, Fits finding) ∧
      Holds (project.consult store stage.query file (stage.inquiry file)).value.2
  reported : ∀ {project} (kind : DiagnosticKind) {finding}, Fits finding → Holds project →
    Holds { project with host := (report store kind finding project.host).value.2 }
  completed : ∀ {project} (offset : Nat), Holds project →
    Holds (project.consult store (.completions offset) file
      (engine.completions file offset)).value.2

namespace PipelineInvariant

variable (invariant : PipelineInvariant store engine file code) {project : Project σ}

theorem reports (kind : DiagnosticKind) {findings : List EngineDiagnostic}
    (fits : ∀ finding ∈ findings, invariant.Fits finding) (holds : invariant.Holds project) :
    invariant.Holds
      (project.onHost (Traced.mapState (report store kind) findings)).value.2 := by
  refine (Traced.mapState_keeps (report store kind)
    (fun host => invariant.Holds { project with host := host }) (fun _ _ => True) ?_ holds).2
  intro finding member host kept
  exact ⟨trivial, invariant.reported kind (fits finding member) kept⟩

/-- The invariant holds wherever the stages end. -/
theorem runStages {stages : List (Stage σ)} (known : stages ⊆ Project.stages engine)
    (holds : invariant.Holds project) :
    invariant.Holds (Project.runStages store file stages project).value.2 := by
  induction stages generalizing project with
  | nil => exact holds
  | cons stage rest inductionHypothesis =>
      obtain ⟨fits, consulted⟩ := invariant.consulted stage (known List.mem_cons_self) holds
      rw [Project.runStages, Traced.value_bind]
      generalize (project.consult store stage.query file (stage.inquiry file)).value = outcome
        at fits consulted ⊢
      obtain ⟨answer, next⟩ := outcome
      cases answer with
      | error error => exact consulted
      | ok findings =>
          have reported := invariant.reports stage.kind (fits findings rfl) consulted
          have others := inductionHypothesis (List.subset_of_cons_subset known) reported
          simp only [Traced.value_bind]
          generalize (Project.runStages store file rest _).value = outcome at others ⊢
          obtain ⟨answer, final⟩ := outcome
          cases answer <;> exact others

theorem runLinter (holds : invariant.Holds project) :
    invariant.Holds (project.runLinter store file).value.2 := by
  rw [Project.runLinter]
  split
  · exact holds
  · exact invariant.looked holds

/-- A diagnostics request keeps the invariant. -/
theorem diagnostics (holds : invariant.Holds project) :
    invariant.Holds (project.diagnostics store engine file code).value.2 := by
  rw [Project.diagnostics]
  split
  · have staged := invariant.runStages (List.Subset.refl _) (invariant.pushed holds)
    rw [Traced.value_bind, Traced.value_bind]
    generalize (Project.runStages store file (stages engine) _).value = outcome at staged ⊢
    obtain ⟨answer, next⟩ := outcome
    split
    · next same => cases same; exact staged
    · next same => cases same; exact invariant.runLinter staged
    · next same => cases same; exact staged
  · exact holds

/-- A completion request keeps the invariant. -/
theorem completions (offset : Nat) (holds : invariant.Holds project) :
    invariant.Holds (project.completions store engine file code offset).value.2 := by
  rw [Project.completions]
  split
  · have asked := invariant.looked (invariant.pushed holds)
    rw [Traced.value_bind, Traced.value_bind]
    generalize (Project.onHost _ (Host.snapshot store file)).value = outcome at asked ⊢
    obtain ⟨snapshot, next⟩ := outcome
    have consulted := invariant.completed offset asked
    simp only
    split
    · exact asked
    · rw [Traced.value_bind]
      generalize (Project.consult store _ file _ _).value = outcome at consulted ⊢
      obtain ⟨answer, final⟩ := outcome
      cases answer <;> exact consulted
  · exact holds

end PipelineInvariant

end Project

end ScriptAnalysis
