import ScriptAnalysis.Proofs.Config.Resolve

/-!
# How resolution divides the listed files

A configuration that can be used is taken over, and every file that it lists becomes either a root
file or an error, in the order of the list. Of a configuration that cannot be used nothing is left
but one error. Either way the store is read once for the configuration file and once for each listed
file (`readFiles_resolveProject`).
-/

namespace ScriptAnalysis

namespace ResolvedProject

/-- What is left of a configuration that cannot be used: an error that names its file. -/
structure Refuses (resolved : ResolvedProject) (file : SourcePath) (error : ConfigError) :
    Prop where
  errors : resolved.errors = [⟨.configuration,
    "TS5014: Failed to parse file '" ++ file.text ++ "': " ++ Text.trimEndBlank error.detail ++ ".",
    none⟩]
  settings : resolved.settings = CompilationSettings.empty
  lint : resolved.lint = none
  rootFiles : resolved.rootFiles = []

/-- What becomes of a configuration whose files are found where the test says so. -/
structure Divides (resolved : ResolvedProject) (config : ProjectConfig)
    (files : List SourcePath) (found : SourcePath → Bool) : Prop where
  rootFiles : resolved.rootFiles = files.filter found
  errors : resolved.errors = (files.filter fun file => !found file).map fun file =>
    ⟨.configuration, "TS6053: File '" ++ file.text ++ "' not found.", none⟩
  settings : resolved.settings = config.compiler
  lint : resolved.lint = config.lint

end ResolvedProject

theorem unusableConfig_eq (file : SourcePath) (error : ConfigError) :
    unusableConfig file error = ⟨.configuration,
      "TS5014: Failed to parse file '" ++ file.text ++ "': " ++
        Text.trimEndBlank error.detail ++ ".", none⟩ := by
  have code : DiagnosticCode.configParse.text = "TS5014" := by decide
  simp only [unusableConfig, Diagnostic.configuration, Diagnostic.compiler, DiagnosticCode.label,
    code, String.append_assoc]
  rfl

theorem missingFile_eq (file : SourcePath) :
    missingFile file =
      ⟨.configuration, "TS6053: File '" ++ file.text ++ "' not found.", none⟩ := by
  have code : DiagnosticCode.fileNotFound.text = "TS6053" := by decide
  simp only [missingFile, Diagnostic.configuration, Diagnostic.compiler, DiagnosticCode.label,
    code, String.append_assoc]
  rfl

namespace Event

/-- The file that is read. -/
def readFile? : Event → Option SourcePath
  | .read file => some file
  | _ => none

/-- The files that were read, one after the other. -/
def readFiles (events : List Event) : List SourcePath :=
  events.filterMap readFile?

@[simp]
theorem readFiles_append (left right : List Event) :
    readFiles (left ++ right) = readFiles left ++ readFiles right :=
  List.filterMap_append

theorem isRead_eq_isSome (event : Event) : event.isRead = event.readFile?.isSome := by
  cases event <;> rfl

theorem reads_eq_length (events : List Event) : reads events = (readFiles events).length := by
  rw [reads, readFiles, List.length_filterMap_eq_countP]
  exact List.countP_congr fun event _ => by rw [event.isRead_eq_isSome]

end Event

@[simp]
theorem SourceStore.readFiles_readText (store : SourceStore) (file : SourcePath) :
    Event.readFiles (store.readText file).events = [file] := by
  unfold readText
  split <;> rfl

/-- Each listed file is read once, in the order of the list. -/
theorem readFiles_findRootFiles (store : SourceStore) (files : List SourcePath) :
    Event.readFiles (findRootFiles store files).events = files := by
  induction files with
  | nil => rfl
  | cons file rest inductionHypothesis =>
      rw [findRootFiles, Traced.events_bind, Traced.events_bind, Event.readFiles_append,
        Event.readFiles_append, inductionHypothesis, SourceStore.readFiles_readText]
      cases (store.readText file).value <;> exact congrArg _ (List.append_nil rest)

/-- Loading reads the configuration file and nothing else. -/
theorem readFiles_loadConfig (store : SourceStore) (root : SourcePath) :
    Event.readFiles (loadConfig store root).events = [configFile root] := by
  rw [loadConfig, Traced.events_bind, Event.readFiles_append, SourceStore.readFiles_readText]
  cases (store.readText (configFile root)).value <;> rfl

/-- Resolution reads the configuration file, and then the files that it lists if it can be used. -/
theorem readFiles_resolveProject (store : SourceStore) (root : SourcePath) :
    Event.readFiles (resolveProject store root).events = configFile root :: store.listed root := by
  rw [resolveProject, Traced.events_bind, Event.readFiles_append, readFiles_loadConfig,
    loadConfig_value, SourceStore.listed]
  cases store.config root with
  | error error => rfl
  | ok config =>
      rw [Traced.events_bind, Event.readFiles_append, readFiles_findRootFiles]
      exact congrArg _ (List.append_nil _)

theorem refuses_resolved (store : SourceStore) (root : SourcePath) (error : ConfigError) :
    (store.resolved root (.error error)).Refuses (configFile root) error where
  errors := congrArg (fun entry => [entry]) (unusableConfig_eq (configFile root) error)
  settings := rfl
  lint := rfl
  rootFiles := rfl

theorem divides_resolved (store : SourceStore) (root : SourcePath) (config : ProjectConfig) :
    (store.resolved root (.ok config)).Divides config (config.listed root) store.has where
  rootFiles := rfl
  errors := List.map_congr_left fun file _ => missingFile_eq file
  settings := rfl
  lint := rfl

/-- What a store makes of a project directory. A configuration file that is there but cannot be
used leaves one error that names it. Otherwise the configuration, which sets nothing if its file is
missing, is taken over, and the files that it lists are divided: those that the store has are the
root files and each other one is an error, in the order of the list and as often as they stand
there. The store is asked once for the configuration file and once for each listed file. -/
theorem resolveProject_divides_files (store : SourceStore) (root : SourcePath) :
    let resolution := resolveProject store root
    let resolved := resolution.value
    resolved.root = root ∧
      match store.text? (configFile root) with
      | none =>
          resolved.Divides ProjectConfig.standard [] store.has ∧
            Event.readFiles resolution.events = [configFile root] ∧
            Event.reads resolution.events = 1
      | some text =>
          match ProjectConfig.ofText text with
          | .error error =>
              resolved.Refuses (configFile root) error ∧
                Event.readFiles resolution.events = [configFile root] ∧
                Event.reads resolution.events = 1
          | .ok config =>
              let files := config.files.map fun file => root.combine ⟨file⟩
              resolved.Divides config files store.has ∧
                Event.readFiles resolution.events = configFile root :: files ∧
                Event.reads resolution.events = 1 + config.files.length := by
  intro resolution resolved
  have value : resolved = store.resolved root (store.config root) := resolveProject_value store root
  have read : Event.readFiles resolution.events = configFile root :: store.listed root :=
    readFiles_resolveProject store root
  rw [Event.reads_eq_length, read, value]
  refine ⟨by cases store.config root <;> rfl, ?_⟩
  rw [SourceStore.listed, SourceStore.config]
  cases store.text? (configFile root) with
  | none => exact ⟨divides_resolved store root .standard, rfl, rfl⟩
  | some text =>
      dsimp only [ProjectConfig.ofText?]
      cases ProjectConfig.ofText text with
      | error error => exact ⟨refuses_resolved store root error, rfl, rfl⟩
      | ok config =>
          have count : (config.listed root).length = config.files.length := List.length_map _
          refine ⟨divides_resolved store root config, rfl, ?_⟩
          exact (congrArg Nat.succ count).trans (Nat.add_comm _ 1)

end ScriptAnalysis
