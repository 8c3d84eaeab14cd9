import ScriptAnalysis.Event
import ScriptAnalysis.Text.Quoted

/-!
# Log records

Most events have a line in the log: a level, the part of the program that it is about,
a message, and named values. Reads, listings and queries have none.
-/

namespace ScriptAnalysis

/-- How much a record matters. -/
inductive LogLevel where
  | error
  | warn
  | info
  | debug
  | trace
  deriving DecidableEq, Repr

namespace LogLevel

/-- The least verbosity at which records of the level are shown. -/
def verbosity : LogLevel → Nat
  | .error => 1
  | .warn => 2
  | .info => 3
  | .debug => 4
  | .trace => 5

/-- How the level is shown. -/
def name : LogLevel → String
  | .error => "ERROR"
  | .warn => "WARN"
  | .info => "INFO"
  | .debug => "DEBUG"
  | .trace => "TRACE"

end LogLevel

/-- The number of this release. -/
def version : String := "0.1.0"

/-- One line of the log. -/
structure LogRecord where
  level : LogLevel
  /-- The part of the program, by which a filter may select. -/
  target : String
  message : String
  /-- Names and values in the order in which they are shown. -/
  fields : List (String × String)
  deriving DecidableEq, Repr

namespace LogRecord

/-- The record as a line without its break. -/
def text (record : LogRecord) : String :=
  record.level.name ++ " " ++ record.message ++
    String.join (record.fields.map fun (name, value) => " " ++ name ++ "=" ++ value)

/-- How a truth value is shown. -/
def flag (value : Bool) : String :=
  if value then "true" else "false"

end LogRecord

open LogRecord (flag)

/-- The log record of an event. -/
def Event.record? : Event → Option LogRecord
  | .read _ => none
  | .listed _ => none
  | .createdEngine _ => none
  | .asked _ _ => none
  | .unreadable path reason =>
      some ⟨.debug, "quill_source::store", "treating unreadable file as absent",
        [("path", path.text), ("error", reason)]⟩
  | .cachedListing directory subdirectories =>
      some ⟨.debug, "quill_cache::directory", "cached directory listing",
        [("dir", directory.text), ("subdirs", toString subdirectories)]⟩
  | .evicted path =>
      some ⟨.debug, "quill_cache::snapshot", "evicted snapshot of missing or empty file",
        [("path", path.text)]⟩
  | .fileChanged path tracked =>
      some ⟨.debug, "quill_cache::source_cache", "file changed",
        [("path", path.text), ("tracked", flag tracked)]⟩
  | .directoryChanged directory files listings =>
      some ⟨.debug, "quill_cache::source_cache", "directory changed",
        [("dir", directory.text), ("files", toString files), ("listings", toString listings)]⟩
  | .noConfiguration directory =>
      some ⟨.debug, "quill_config::loader", "no quill.toml, using defaults",
        [("dir", directory.text)]⟩
  | .invalidConfiguration file reason =>
      some ⟨.warn, "quill_config::resolve", "invalid project configuration",
        [("config", file.text), ("error", reason)]⟩
  | .createdProject root files errors lint =>
      some ⟨.info, "quill_service::project", "created project",
        [("root", root.text), ("files", toString files), ("config_errors", toString errors),
          ("lint", flag lint)]⟩
  | .reconfiguredProject root files errors =>
      some ⟨.info, "quill_service::project", "reconfigured project",
        [("root", root.text), ("files", toString files), ("config_errors", toString errors)]⟩
  | .keptConfiguration root reason =>
      some ⟨.warn, "quill_service::registry", "keeping previous configuration",
        [("root", root.text), ("error", reason)]⟩
  | .appliedNotification changes processed =>
      some ⟨.debug, "quill_service::service", "applied change notification",
        [("changes", toString changes), ("processed", flag processed)]⟩
  | .diagnosticsFailed root file reason =>
      some ⟨.error, "quill_service::service", "diagnostics request failed",
        [("root", root.text), ("file", file.text), ("error", reason)]⟩
  | .completionsFailed root file position reason =>
      some ⟨.error, "quill_service::service", "completions request failed",
        [("root", root.text), ("file", file.text), ("position", toString position),
          ("error", reason)]⟩
  | .balanceChecked file count =>
      some ⟨.debug, "quill::delimiter", "delimiter check",
        [("file", file.text), ("count", toString count)]⟩
  | .engineTrace root message =>
      some ⟨.info, "quill_host::service_host", "engine trace: " ++ message,
        [("root", root.text)]⟩
  | .engineComplaint root message =>
      some ⟨.warn, "quill_host::service_host", "engine error: " ++ message,
        [("root", root.text)]⟩
  | .rejectedRequest reason =>
      some ⟨.warn, "quill::protocol", "rejected request line", [("error", reason)]⟩
  | .sessionOpened =>
      some ⟨.info, "quill::serve", "serving requests on stdin",
        [("version", Text.quoted version)]⟩
  | .sessionClosed requests projects =>
      some ⟨.info, "quill::serve", "stdin closed",
        [("requests", toString requests), ("projects", toString projects)]⟩
  | .commandFailed reason =>
      some ⟨.error, "quill", "command failed", [("error", reason)]⟩

end ScriptAnalysis
