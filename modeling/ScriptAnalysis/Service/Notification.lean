import ScriptAnalysis.Engine.Wire

/-!
# Change notifications

An editor or a watcher reports a batch of changed paths. A change of a directory means
that something changed anywhere below it.
-/

namespace ScriptAnalysis

/-- What a changed path is. -/
inductive ChangeKind where
  | file
  | directory
  deriving DecidableEq, Repr

namespace ChangeKind

/-- The name of the kind. -/
def name : ChangeKind → String
  | .file => "file"
  | .directory => "directory"

/-- Both kinds with their names. -/
def named : List (String × ChangeKind) :=
  [("file", .file), ("directory", .directory)]

/-- Read a kind from JSON. -/
def decode : Json.Decoder ChangeKind :=
  Json.decodeVariant named

end ChangeKind

/-- One changed path. -/
structure FileChange where
  kind : ChangeKind
  path : SourcePath
  deriving DecidableEq, Repr

namespace FileChange

/-- The change as JSON. -/
def toJson (change : FileChange) : Json :=
  .object [("type", .string change.kind.name), ("fullPath", .string change.path.text)]

/-- How a change is read. -/
def record : Json.Record (Option ChangeKind × Option SourcePath) FileChange where
  name := "FileChange"
  fields :=
    [⟨"type", fun value draft =>
        (ChangeKind.decode value).map fun kind => (some kind, draft.2), false⟩,
      ⟨"fullPath", fun value draft =>
        (SourcePath.decode value).map fun path => (draft.1, some path), false⟩]
  strict := false
  start := (none, none)
  finish draft :=
    match Json.required "type" draft.1, Json.required "fullPath" draft.2 with
    | .ok kind, .ok path => .ok ⟨kind, path⟩
    | .error error, _ => .error error
    | _, .error error => .error error

/-- Read a change from JSON. -/
def decode : Json.Decoder FileChange :=
  record.decode

end FileChange

/-- A batch of changes, which are applied in order. -/
structure FileChangeNotification where
  changes : List FileChange
  deriving DecidableEq, Repr

namespace FileChangeNotification

/-- The notification as JSON. -/
def toJson (notification : FileChangeNotification) : Json :=
  .object [("changes", .array (notification.changes.map FileChange.toJson))]

/-- How a notification is read: without changes it is empty. -/
def record : Json.Record (List FileChange) FileChangeNotification where
  name := "FileChangeNotification"
  fields := [⟨"changes", fun value _ => Json.decodeList FileChange.decode value, true⟩]
  strict := false
  start := []
  finish changes := .ok ⟨changes⟩

/-- Read a notification from JSON. -/
def decode : Json.Decoder FileChangeNotification :=
  record.decode

end FileChangeNotification

end ScriptAnalysis
