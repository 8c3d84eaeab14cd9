import ScriptAnalysis.Engine

/-!
# Engine values as JSON

How findings, locations and completion candidates are written and read.
-/

namespace ScriptAnalysis

/-- Read a path from JSON. -/
def SourcePath.decode (value : Json) : Except ShapeError SourcePath :=
  (Json.decodeTextAs "path string" value).map SourcePath.mk

namespace DiagnosticLocation

/-- The location as JSON. -/
def toJson (location : DiagnosticLocation) : Json :=
  .object [("file", .string location.file.text), ("start", .nat location.start)]

/-- How a location is read. -/
def record : Json.Record (Option SourcePath × Option Nat) DiagnosticLocation where
  name := "DiagnosticLocation"
  fields :=
    [⟨"file", fun value draft =>
        (SourcePath.decode value).map fun file => (some file, draft.2), false⟩,
      ⟨"start", fun value draft =>
        (Json.decodeSize value).map fun start => (draft.1, some start), false⟩]
  strict := false
  start := (none, none)
  finish draft :=
    match Json.required "file" draft.1, Json.required "start" draft.2 with
    | .ok file, .ok start => .ok ⟨file, start⟩
    | .error error, _ => .error error
    | _, .error error => .error error

/-- Read a location from JSON. -/
def decode : Json.Decoder DiagnosticLocation :=
  record.decode

end DiagnosticLocation

namespace EngineDiagnostic

/-- The finding as JSON; a missing location is null. -/
def toJson (diagnostic : EngineDiagnostic) : Json :=
  .object [("code", .nat diagnostic.code.toNat), ("message", diagnostic.message.toJson),
    ("location",
      match diagnostic.location with
      | some location => location.toJson
      | none => .null)]

/-- What has been read of a finding. -/
structure Draft where
  code : Option UInt32
  message : Option MessageChain
  location : Option DiagnosticLocation

/-- How a finding is read. An object may leave the location out; an array may not. -/
def record : Json.Record Draft EngineDiagnostic where
  name := "EngineDiagnostic"
  fields :=
    [⟨"code", fun value draft =>
        (Json.decodeUInt32 value).map fun code => { draft with code := some code }, false⟩,
      ⟨"message", fun value draft =>
        (MessageChain.decode value).map fun message => { draft with message := some message },
        false⟩,
      ⟨"location", fun value draft =>
        (Json.decodeOption DiagnosticLocation.decode value).map fun location =>
          { draft with location := location }, false⟩]
  strict := false
  start := ⟨none, none, none⟩
  finish draft :=
    match Json.required "code" draft.code, Json.required "message" draft.message with
    | .ok code, .ok message => .ok ⟨code, message, draft.location⟩
    | .error error, _ => .error error
    | _, .error error => .error error

/-- Read a finding from JSON. -/
def decode : Json.Decoder EngineDiagnostic :=
  record.decode

end EngineDiagnostic

namespace CompletionEntry

/-- The candidate as JSON. -/
def toJson (entry : CompletionEntry) : Json :=
  .object [("name", .string entry.name), ("kind", .string entry.kind),
    ("sortText", .string entry.sortText)]

/-- What has been read of a candidate. -/
structure Draft where
  name : Option String
  kind : Option String
  sortText : Option String

/-- How a candidate is read. -/
def record : Json.Record Draft CompletionEntry where
  name := "CompletionEntry"
  fields :=
    [⟨"name", fun value draft =>
        (Json.decodeString value).map fun name => { draft with name := some name }, false⟩,
      ⟨"kind", fun value draft =>
        (Json.decodeString value).map fun kind => { draft with kind := some kind }, false⟩,
      ⟨"sortText", fun value draft =>
        (Json.decodeString value).map fun text => { draft with sortText := some text }, false⟩]
  strict := false
  start := ⟨none, none, none⟩
  finish draft :=
    match Json.required "name" draft.name, Json.required "kind" draft.kind,
        Json.required "sortText" draft.sortText with
    | .ok name, .ok kind, .ok sortText => .ok ⟨name, kind, sortText⟩
    | .error error, _, _ => .error error
    | _, .error error, _ => .error error
    | _, _, .error error => .error error

/-- Read a candidate from JSON. -/
def decode : Json.Decoder CompletionEntry :=
  record.decode

end CompletionEntry

end ScriptAnalysis
