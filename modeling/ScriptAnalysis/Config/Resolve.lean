import ScriptAnalysis.Config.Project
import ScriptAnalysis.Diagnostic.Report
import ScriptAnalysis.Store

/-!
# Resolved projects

`resolve` reads the configuration file of a project directory and checks it against the
store. It never fails: what is wrong with the configuration becomes a diagnostic of the
resolved project, and so does every listed file that cannot be read.
-/

namespace ScriptAnalysis

/-- The file name of a project's configuration. -/
def configFileName : String := "quill.toml"

/-- The configuration file of a project directory. -/
def configFile (directory : SourcePath) : SourcePath :=
  directory.join ⟨configFileName⟩

/-- Everything needed to build a project. -/
structure ResolvedProject where
  root : SourcePath
  settings : CompilationSettings
  /-- The configured files that exist. -/
  rootFiles : List SourcePath
  /-- The lint section, if the lint stage is enabled. -/
  lint : Option LintConfig
  /-- What is wrong with the configuration. -/
  errors : List Diagnostic

namespace ResolvedProject

/-- Whether something is wrong with the configuration. -/
def hasErrors (resolved : ResolvedProject) : Bool :=
  !resolved.errors.isEmpty

end ResolvedProject

/-- Read the configuration of a directory. A missing file sets nothing. -/
def loadConfig (store : SourceStore) (directory : SourcePath) :
    Traced (Except ConfigError ProjectConfig) := do
  match ← store.readText (configFile directory) with
  | some text => pure (ProjectConfig.ofText text)
  | none =>
      Traced.note (.noConfiguration directory)
      pure (.ok ProjectConfig.standard)

/-- The diagnostic for a configuration that cannot be used. -/
def unusableConfig (file : SourcePath) (error : ConfigError) : Diagnostic :=
  Diagnostic.configuration .configParse
    ("Failed to parse file '" ++ file.text ++ "': " ++ Text.trimEndBlank error.detail ++ ".")

/-- The diagnostic for a listed file that cannot be read. -/
def missingFile (file : SourcePath) : Diagnostic :=
  Diagnostic.configuration .fileNotFound ("File '" ++ file.text ++ "' not found.")

/-- Look for each listed file: those that can be read, and a diagnostic for each other
one, both in the order of the list. -/
def findRootFiles (store : SourceStore) :
    List SourcePath → Traced (List SourcePath × List Diagnostic)
  | [] => pure ([], [])
  | file :: rest => do
      let text ← store.readText file
      let (found, missing) ← findRootFiles store rest
      match text with
      | some _ => pure (file :: found, missing)
      | none => pure (found, missingFile file :: missing)

/-- Resolve the project in a directory. -/
def resolveProject (store : SourceStore) (root : SourcePath) : Traced ResolvedProject := do
  match ← loadConfig store root with
  | .error error =>
      Traced.note (.invalidConfiguration (configFile root) error.message)
      pure ⟨root, CompilationSettings.empty, [], none, [unusableConfig (configFile root) error]⟩
  | .ok config =>
      let files := config.files.map fun file => root.combine ⟨file⟩
      let (found, missing) ← findRootFiles store files
      pure ⟨root, config.compiler, found, config.lint, missing⟩

end ScriptAnalysis
