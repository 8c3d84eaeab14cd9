import ScriptAnalysis.Proofs.Service.Reachable

/-!
# What sets the configuration of a project

The configuration of a project is set when the project is created and when a change
concerns its root, and by nothing else: whatever an engine asks of its host, a request leaves
the configuration as it was. A change concerns a root exactly if it touches the place
of the root's configuration file.
-/

namespace ScriptAnalysis

variable {σ α : Type} {store : SourceStore} {engine : Engine σ}

namespace Host

@[simp]
theorem settings_answer (store : SourceStore) (host : Host) (question : HostQuestion) :
    (host.answer store question).value.2.settings = host.settings := by
  cases question <;> rfl

end Host

/-- No inquiry changes the settings of the host that it asks. -/
@[simp]
theorem Inquiry.settings_run (store : SourceStore) (inquiry : Inquiry α) (host : Host) :
    (inquiry.run store host).value.2.settings = host.settings := by
  induction inquiry generalizing host with
  | done result => rfl
  | note event next inductionHypothesis => exact inductionHypothesis host
  | ask question next inductionHypothesis =>
      rw [run, Traced.value_bind, inductionHypothesis, Host.settings_answer]

namespace Project

variable {file : SourcePath} {code : String} {project : Project σ}

theorem configuration_consult (store : SourceStore) (query : EngineQuery) (file : SourcePath)
    (inquiry : σ → EngineAnswer σ α) (project : Project σ) :
    (project.consult store query file inquiry).value.2.configuration = project.configuration :=
  congrArg (fun settings => (settings, project.linter, project.configurationErrors))
    ((inquiry project.engineState).settings_run store project.host)

theorem settings_report (store : SourceStore) (kind : DiagnosticKind)
    (finding : EngineDiagnostic) (host : Host) :
    (report store kind finding host).value.2.settings = host.settings := by
  rw [report]
  split <;> rfl

/-- The configuration survives every step of a request. -/
def configurationInvariant (store : SourceStore) (engine : Engine σ) (file : SourcePath)
    (code : String) (configuration : CompilationSettings × Option Linter × List Diagnostic) :
    PipelineInvariant store engine file code where
  Holds project := project.configuration = configuration
  Fits _ := True
  pushed same := same
  looked same := same
  consulted stage _ same :=
    ⟨fun _ _ _ _ => trivial,
      (configuration_consult store stage.query file (stage.inquiry file) _).trans same⟩
  reported kind finding _ same :=
    (congrArg (fun settings => (settings, _, _))
      (settings_report store kind finding _)).trans same
  completed offset same :=
    (configuration_consult store (.completions offset) file
      (engine.completions file offset) _).trans same

/-- A diagnostics request leaves the configuration as it was. -/
theorem configuration_diagnostics (store : SourceStore) (engine : Engine σ) (file : SourcePath)
    (code : String) (project : Project σ) :
    (project.diagnostics store engine file code).value.2.configuration =
      project.configuration :=
  (configurationInvariant store engine file code project.configuration).diagnostics rfl

/-- A completion request leaves the configuration as it was. -/
theorem configuration_completions (store : SourceStore) (engine : Engine σ) (file : SourcePath)
    (code : String) (offset : Nat) (project : Project σ) :
    (project.completions store engine file code offset).value.2.configuration =
      project.configuration :=
  (configurationInvariant store engine file code project.configuration).completions offset rfl

/-- A new project has the configuration that the store holds. -/
theorem configuration_create (store : SourceStore) (options : HostOptions) (engineState : σ)
    (root : SourcePath) :
    (create store options engineState (resolveProject store root).value).value.configuration =
      configurationAt store root := by
  rw [create_value]
  rfl

end Project

namespace FileChange

/-- The root that a path configures is what stands before the name of the file. -/
theorem configuredRoot?_eq_some_iff {path root : SourcePath} :
    Registry.configuredRoot? path = some root ↔
      ∃ above, path.components = above ++ [.name configFileName] ∧
        SourcePath.ofComponents above = root := by
  rw [Registry.configuredRoot?]
  split
  · next named =>
      obtain ⟨above, shape⟩ := SourcePath.fileName_eq_some_iff.mp named
      rw [SourcePath.parent_of_components shape, Option.some_inj]
      constructor
      · intro same
        exact ⟨above, shape, same⟩
      · rintro ⟨other, again, same⟩
        rwa [List.append_cancel_right (shape.symm.trans again)]
  · next unnamed =>
      refine iff_of_false (fun absent => by cases absent) ?_
      rintro ⟨above, shape, _⟩
      exact unnamed (SourcePath.fileName_eq_some_iff.mpr ⟨above, shape⟩)

/-- A normal path is that of a root's configuration file exactly if it configures the root. -/
theorem configuredRoot?_normalize_iff {root : SourcePath} (plain : root.IsPlain)
    (path : SourcePath) :
    Registry.configuredRoot? path.normalize = some root ↔
      path.normalize.components = (configFile root).components := by
  rw [configuredRoot?_eq_some_iff, components_configFile]
  constructor
  · rintro ⟨above, shape, rfl⟩
    have spellable := path.spellable_normalComponents.dropLast
    rw [← SourcePath.components_normalize, shape, List.dropLast_concat] at spellable
    rw [SourcePath.components_ofComponents spellable, shape]
  · intro shape
    exact ⟨root.components, shape, plain⟩

/-- A change concerns a root exactly if it touches the place of its configuration file. -/
theorem concerns_eq_touches {root : SourcePath} (plain : root.IsPlain) (change : FileChange) :
    change.concerns root = change.touches (configFile root).components := by
  unfold concerns touches
  cases change.kind with
  | file => exact decide_eq_decide.mpr (configuredRoot?_normalize_iff plain change.path)
  | directory => rfl

end FileChange

end ScriptAnalysis
