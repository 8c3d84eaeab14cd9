import ScriptAnalysis.Service.Notification
import ScriptAnalysis.Session.Request

/-!
# Commands

What a request asks for: a notification, the diagnostics of a file, or completions. A
`Command` is read from the name and the parameters of a request.
-/

namespace ScriptAnalysis

/-- What a caller asks of a session. -/
inductive Command where
  | notify (notification : FileChangeNotification)
  | diagnostics (root file : SourcePath) (code : String)
  | completions (root file : SourcePath) (code : String) (offset : Nat)

/-- Why a request asks for nothing. -/
inductive CommandError where
  | unknown (name : String)
  | invalidParameters (name : String) (error : ShapeError)
  deriving DecidableEq, Repr

/-- The wording of each problem. -/
def CommandError.message : CommandError → String
  | .unknown name => "unknown command '" ++ name ++ "'"
  | .invalidParameters name error =>
      "invalid params for '" ++ name ++ "': " ++ error.message

namespace Command

/-- What has been read of the parameters of a diagnostics or completion command. -/
structure Draft where
  root : Option SourcePath
  file : Option SourcePath
  code : String
  offset : Option Nat

/-- The draft before anything has been read. Without a text the file is read. -/
def blankDraft : Draft := ⟨none, none, "", none⟩

/-- The fields that say which text is meant. -/
def textFields : List (Json.Field Draft) :=
  [⟨"projectRoot", fun value draft =>
      (SourcePath.decode value).map fun root => { draft with root := some root }, false⟩,
    ⟨"fullPath", fun value draft =>
      (SourcePath.decode value).map fun file => { draft with file := some file }, false⟩,
    ⟨"code", fun value draft =>
      (Json.decodeString value).map fun code => { draft with code := code }, true⟩]

/-- How the parameters of a diagnostics command are read. -/
def diagnosticsRecord : Json.Record Draft Command where
  name := "DiagnosticsParams"
  fields := textFields
  strict := false
  start := blankDraft
  finish draft :=
    match Json.required "projectRoot" draft.root, Json.required "fullPath" draft.file with
    | .ok root, .ok file => .ok (.diagnostics root file draft.code)
    | .error error, _ => .error error
    | _, .error error => .error error

/-- How the parameters of a completion command are read. -/
def completionsRecord : Json.Record Draft Command where
  name := "CompletionsParams"
  fields := textFields ++
    [⟨"position", fun value draft =>
      (Json.decodeSize value).map fun offset => { draft with offset := some offset }, false⟩]
  strict := false
  start := blankDraft
  finish draft :=
    match Json.required "projectRoot" draft.root, Json.required "fullPath" draft.file,
        Json.required "position" draft.offset with
    | .ok root, .ok file, .ok offset => .ok (.completions root file draft.code offset)
    | .error error, _, _ => .error error
    | _, .error error, _ => .error error
    | _, _, .error error => .error error

/-- How the parameters of a notification are read. -/
def readNotification (parameters : Json) : Except ShapeError Command :=
  (FileChangeNotification.decode parameters).map Command.notify

/-- The known commands with the readers of their parameters. -/
def readers : List (String × Json.Decoder Command) :=
  [("notifyFileChanged", readNotification), ("getDiagnostics", diagnosticsRecord.decode),
    ("getCompletions", completionsRecord.decode)]

/-- What a request asks for. -/
def ofRequest (request : Request) : Except CommandError Command :=
  match readers.find? fun entry => entry.1 == request.command with
  | none => .error (.unknown request.command)
  | some (name, read) => (read request.parameters).mapError (.invalidParameters name)

end Command

end ScriptAnalysis
