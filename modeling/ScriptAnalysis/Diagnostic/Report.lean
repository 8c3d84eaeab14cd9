import ScriptAnalysis.Diagnostic.Kind
import ScriptAnalysis.Position

/-!
# Diagnostics and reports

A `Diagnostic` is one finding as it is handed to a caller, and a `Report` is the answer to
a request: the findings of the stage that ended it. An empty report means that the file
is clean.
-/

namespace ScriptAnalysis

/-- One finding. -/
structure Diagnostic where
  kind : DiagnosticKind
  /-- The message, with the code before it for compiler kinds. -/
  message : String
  position : Option Position
  deriving DecidableEq, Repr

namespace Diagnostic

/-- A compiler finding. -/
def compiler (kind : DiagnosticKind) (code : DiagnosticCode) (message : String)
    (position : Option Position) : Diagnostic :=
  ⟨kind, code.label message, position⟩

/-- A finding about a configuration, which has no position. -/
def configuration (code : DiagnosticCode) (message : String) : Diagnostic :=
  compiler .configuration code message none

/-- A lint finding of a rule. -/
def lint (rule text : String) (position : Option Position) : Diagnostic :=
  ⟨.lint, rule ++ ": " ++ text, position⟩

/-- The finding as JSON; a missing position is left out. -/
def toJson (diagnostic : Diagnostic) : Json :=
  .object ([("kind", diagnostic.kind.toJson), ("message", .string diagnostic.message)] ++
    (diagnostic.position.map fun position => ("pos", position.toJson)).toList)

/-- What has been read of a finding. -/
structure Draft where
  kind : Option DiagnosticKind
  message : Option String
  position : Option Position

/-- How a finding is read: the position may be missing. -/
def record : Json.Record Draft Diagnostic where
  name := "DiagnosticEntry"
  fields :=
    [⟨"kind", fun value draft =>
        (DiagnosticKind.decode value).map fun kind => { draft with kind := some kind }, false⟩,
      ⟨"message", fun value draft =>
        (Json.decodeString value).map fun text => { draft with message := some text }, false⟩,
      ⟨"pos", fun value draft =>
        (Json.decodeOption Position.decode value).map fun position =>
          { draft with position := position }, true⟩]
  strict := false
  start := ⟨none, none, none⟩
  finish draft :=
    match Json.required "kind" draft.kind, Json.required "message" draft.message with
    | .ok kind, .ok message => .ok ⟨kind, message, draft.position⟩
    | .error error, _ => .error error
    | _, .error error => .error error

/-- Read a finding from JSON. -/
def decode : Json.Decoder Diagnostic :=
  record.decode

end Diagnostic

/-- The answer to a diagnostics request. -/
structure Report where
  errors : List Diagnostic
  deriving DecidableEq, Repr

namespace Report

/-- The report of a clean file. -/
def clean : Report := ⟨[]⟩

/-- Whether nothing was found. -/
def isClean (report : Report) : Bool :=
  report.errors.isEmpty

/-- The number of findings. -/
def size (report : Report) : Nat :=
  report.errors.length

/-- The report as JSON. -/
def toJson (report : Report) : Json :=
  .object [("errors", .array (report.errors.map Diagnostic.toJson))]

/-- How a report is read. -/
def record : Json.Record (Option (List Diagnostic)) Report where
  name := "Report"
  fields :=
    [⟨"errors", fun value _ => (Json.decodeList Diagnostic.decode value).map some, false⟩]
  strict := false
  start := none
  finish draft := (Json.required "errors" draft).map Report.mk

/-- Read a report from JSON. -/
def decode : Json.Decoder Report :=
  record.decode

/-- The kinds of all findings in the order of the stages. -/
def sortedKinds (report : Report) : List DiagnosticKind :=
  (report.errors.map Diagnostic.kind).mergeSort fun left right => left.stage ≤ right.stage

end Report

end ScriptAnalysis
