import ScriptAnalysis.Json.Decode
import ScriptAnalysis.SourcePath

/-!
# Settings

Three groups of settings: what the compiler is told (`CompilationSettings`, an object that
nobody here interprets apart from its `target`), what the lint stage is told
(`LintConfig`), and what holds for every project of a process (`HostOptions`).
-/

namespace ScriptAnalysis

/-- Compiler settings: the members of a JSON object, kept as they are. -/
structure CompilationSettings where
  members : List (String × Json)

namespace CompilationSettings

/-- No settings. -/
def empty : CompilationSettings := ⟨[]⟩

/-- One setting. -/
def get? (settings : CompilationSettings) (name : String) : Option Json :=
  Json.member? name settings.members

/-- The `target` setting, if it is a text. -/
def target? (settings : CompilationSettings) : Option String :=
  match settings.get? "target" with
  | some (.string text) => some text
  | _ => none

/-- Whether there is no setting. -/
def isEmpty (settings : CompilationSettings) : Bool :=
  settings.members.isEmpty

/-- The settings as JSON. -/
def toJson (settings : CompilationSettings) : Json :=
  .object settings.members

/-- Read settings from JSON. -/
def decode (value : Json) : Except ShapeError CompilationSettings :=
  (Json.decodeMap value).map CompilationSettings.mk

end CompilationSettings

/-- The limit for the length of lines unless a configuration sets another. -/
def defaultMaxLineLength : Nat := 120

/-- The lint section of a configuration. -/
structure LintConfig where
  /-- Names or codes of rules that are not run. -/
  allow : List String
  maxLineLength : Nat
  deriving DecidableEq, Repr

namespace LintConfig

/-- The lint section that sets nothing. -/
def standard : LintConfig := ⟨[], defaultMaxLineLength⟩

/-- The section as JSON. -/
def toJson (config : LintConfig) : Json :=
  .object [("allow", .array (config.allow.map Json.string)),
    ("max_line_length", .nat config.maxLineLength)]

/-- How the section is read: every field may be missing, and no other is allowed. -/
def record : Json.Record LintConfig LintConfig where
  name := "LintConfig"
  fields :=
    [⟨"allow", fun value draft =>
        (Json.decodeList Json.decodeString value).map fun allow => { draft with allow := allow },
        true⟩,
      ⟨"max_line_length", fun value draft =>
        (Json.decodeSize value).map fun limit => { draft with maxLineLength := limit }, true⟩]
  strict := true
  start := standard
  finish draft := .ok draft

/-- Read a lint section from JSON. -/
def decode : Json.Decoder LintConfig :=
  record.decode

end LintConfig

/-- What holds for every project of a process. -/
structure HostOptions where
  caseSensitiveFileNames : Bool
  /-- The directory with the default library files. -/
  toolchainDirectory : SourcePath
  deriving DecidableEq, Repr

namespace HostOptions

/-- Case counts, and the libraries are in `lib`. -/
def standard : HostOptions := ⟨true, ⟨"lib"⟩⟩

end HostOptions

end ScriptAnalysis
