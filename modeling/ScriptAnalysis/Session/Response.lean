import ScriptAnalysis.Json.Printer
import ScriptAnalysis.Service.Requests
import ScriptAnalysis.Session.Command

/-!
# Responses

Every line that is not blank has one response, on one line: the id of the request,
whether it succeeded, and a result or a failure. No failure ends a session.
-/

namespace ScriptAnalysis

/-- Why a line is answered with a failure. -/
inductive SessionError where
  | malformed (error : RequestError)
  | command (error : CommandError)
  | service (error : ServiceError)

/-- The wording of each failure. -/
def SessionError.message : SessionError → String
  | .malformed error => "malformed request: " ++ error.message
  | .command error => error.message
  | .service error => error.message

/-- The answer to one line. -/
structure Response where
  id : Json
  outcome : Except SessionError Json

namespace Response

/-- The response as JSON. Members inside the result are sorted. -/
def toJson (response : Response) : Json :=
  match response.outcome with
  | .ok result =>
      .object [("id", response.id), ("ok", .bool true), ("result", result.sorted)]
  | .error error =>
      .object [("id", response.id), ("ok", .bool false), ("error", .string error.message)]

/-- The response line. -/
def text (response : Response) : String :=
  response.toJson.compact

end Response

namespace Registry

variable {σ : Type}

/-- Do what a command says. -/
def execute (backend : Backend σ) (command : Command) (registry : Registry σ) :
    Traced (Except SessionError Json × Registry σ) :=
  match command with
  | .notify notification => do
      let (processed, next) ← registry.notify backend notification
      pure (.ok (.object [("processed", .bool processed)]), next)
  | .diagnostics root file code => do
      let (answer, next) ← registry.diagnostics backend root file code
      pure ((answer.mapError SessionError.service).map fun report =>
        .object [("report", report.toJson)], next)
  | .completions root file code offset => do
      let (answer, next) ← registry.completions backend root file code offset
      pure ((answer.mapError SessionError.service).map fun report =>
        .object [("report", report.toJson)], next)

/-- Answer a request. -/
def respond (backend : Backend σ) (request : Request) (registry : Registry σ) :
    Traced (Response × Registry σ) :=
  match Command.ofRequest request with
  | .error error => pure (⟨request.id, .error (.command error)⟩, registry)
  | .ok command => do
      let (outcome, next) ← registry.execute backend command
      pure (⟨request.id, outcome⟩, next)

/-- Answer a line. -/
def answerLine (backend : Backend σ) (line : String) (registry : Registry σ) :
    Traced (Response × Registry σ) :=
  match Request.ofLine line with
  | .ok request => registry.respond backend request
  | .error error => do
      let failure := SessionError.malformed error
      Traced.note (.rejectedRequest failure.message)
      pure (⟨.null, .error failure⟩, registry)

end Registry

end ScriptAnalysis
