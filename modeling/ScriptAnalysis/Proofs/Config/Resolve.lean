import Mathlib.Data.List.Basic
import ScriptAnalysis.Config.Resolve
import ScriptAnalysis.Proofs.Path.Spelling

/-!
# What a resolved project depends on

Resolution is a function of two things: the text of the configuration file and, for each
file that a usable configuration lists, whether the store has it (`resolveProject_value`).
So stores that have the text in common resolve to the same settings and the same lint
section, and to the same errors if they also have the same listed files.
-/

namespace ScriptAnalysis

variable {store before after : SourceStore} {root file : SourcePath}

/-- The text of a file in the store, be it empty. -/
def SourceStore.text? (store : SourceStore) (file : SourcePath) : Option String :=
  (store.read file).text?

/-- Whether the store has a text for the file, be it empty. -/
def SourceStore.has (store : SourceStore) (file : SourcePath) : Bool :=
  (store.text? file).isSome

/-- The configuration of a directory by the text of its configuration file. -/
def ProjectConfig.ofText? : Option String → Except ConfigError ProjectConfig
  | some text => ofText text
  | none => .ok standard

/-- The configuration that the store holds for a directory. -/
def SourceStore.config (store : SourceStore) (root : SourcePath) :
    Except ConfigError ProjectConfig :=
  ProjectConfig.ofText? (store.text? (configFile root))

/-- The files that a configuration lists for a directory. -/
def ProjectConfig.listed (config : ProjectConfig) (root : SourcePath) : List SourcePath :=
  config.files.map fun file => root.combine ⟨file⟩

/-- The files that the configuration of a directory lists; one that cannot be used lists
none. -/
def SourceStore.listed (store : SourceStore) (root : SourcePath) : List SourcePath :=
  match store.config root with
  | .ok config => config.listed root
  | .error _ => []

/-- The configuration file lies directly in its directory. -/
theorem components_configFile (root : SourcePath) :
    (configFile root).components = root.components ++ [.name configFileName] :=
  root.components_join_name (by decide)

theorem loadConfig_value (store : SourceStore) (root : SourcePath) :
    (loadConfig store root).value = store.config root := by
  rw [loadConfig, Traced.value_bind, SourceStore.value_readText, SourceStore.config,
    SourceStore.text?]
  cases (store.read (configFile root)).text? <;> rfl

/-- Looking for files keeps those that the store has and reports every other one. -/
theorem findRootFiles_value (store : SourceStore) (files : List SourcePath) :
    (findRootFiles store files).value =
      (files.filter store.has, (files.filter fun file => !store.has file).map missingFile) := by
  induction files with
  | nil => rfl
  | cons file rest inductionHypothesis =>
      simp only [findRootFiles, Traced.value_bind, SourceStore.value_readText, inductionHypothesis]
      have has : store.has file = (store.read file).text?.isSome := rfl
      cases found : (store.read file).text? with
      | some text =>
          rw [found, Option.isSome_some] at has
          simp [has]
      | none =>
          rw [found, Option.isSome_none] at has
          simp [has]

/-- The project that a configuration amounts to. -/
def SourceStore.resolved (store : SourceStore) (root : SourcePath) :
    Except ConfigError ProjectConfig → ResolvedProject
  | .error error =>
      ⟨root, CompilationSettings.empty, [], none, [unusableConfig (configFile root) error]⟩
  | .ok config =>
      ⟨root, config.compiler, (config.listed root).filter store.has, config.lint,
        ((config.listed root).filter fun file => !store.has file).map missingFile⟩

/-- Resolution in closed form. -/
theorem resolveProject_value (store : SourceStore) (root : SourcePath) :
    (resolveProject store root).value = store.resolved root (store.config root) := by
  rw [resolveProject, Traced.value_bind, loadConfig_value]
  cases store.config root with
  | error error => rfl
  | ok config =>
      simp only [Traced.value_bind, findRootFiles_value]
      rfl

/-- The configuration is the same where its text is. -/
theorem SourceStore.config_congr
    (same : before.text? (configFile root) = after.text? (configFile root)) :
    before.config root = after.config root := by
  rw [config, config, same]

/-- Settings and lint section depend on the text of the configuration file only. -/
theorem resolveProject_settings_congr
    (same : before.text? (configFile root) = after.text? (configFile root)) :
    (resolveProject before root).value.settings = (resolveProject after root).value.settings ∧
      (resolveProject before root).value.lint = (resolveProject after root).value.lint := by
  rw [resolveProject_value, resolveProject_value, SourceStore.config_congr same]
  cases after.config root <;> exact ⟨rfl, rfl⟩

/-- The errors depend on nothing but that text and the presence of the files it lists. -/
theorem resolveProject_errors_congr
    (same : before.text? (configFile root) = after.text? (configFile root))
    (present : ∀ file ∈ before.listed root, before.has file = after.has file) :
    (resolveProject before root).value.errors = (resolveProject after root).value.errors := by
  rw [resolveProject_value, resolveProject_value, ← SourceStore.config_congr same]
  cases usable : before.config root with
  | error error => rfl
  | ok config =>
      rw [SourceStore.listed, usable] at present
      refine congrArg (List.map missingFile) (List.filter_congr fun file member => ?_)
      rw [present file member]

theorem missingFile_injective : Function.Injective missingFile := by
  intro left right same
  have message := congrArg Diagnostic.message same
  simp only [missingFile, Diagnostic.configuration, Diagnostic.compiler, DiagnosticCode.label,
    String.append_right_inj, String.append_left_inj] at message
  cases left
  cases right
  exact congrArg SourcePath.mk message

/-- A usable configuration reports exactly the listed files that the store lacks. -/
theorem missingFile_mem_errors_iff {config : ProjectConfig}
    (usable : store.config root = .ok config) :
    missingFile file ∈ (resolveProject store root).value.errors ↔
      file ∈ config.listed root ∧ store.has file = false := by
  rw [resolveProject_value, usable]
  show missingFile file ∈ List.map missingFile _ ↔ _
  rw [List.mem_map_of_injective missingFile_injective, List.mem_filter, Bool.not_eq_true']

end ScriptAnalysis
