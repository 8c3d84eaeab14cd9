import ScriptAnalysis.Engine

/-!
# Failures of requests

Findings are never failures. A request fails only if an engine gives no answer, or if a
project cannot be resolved at all.
-/

namespace ScriptAnalysis

/-- A failure inside the service itself. -/
structure InternalError where
  reason : String
  deriving DecidableEq, Repr

/-- The wording of the failure. -/
def InternalError.message (error : InternalError) : String :=
  "internal error: " ++ error.reason

/-- Why a request has no answer. -/
inductive ServiceError where
  | engine (error : EngineError)
  | internal (error : InternalError)
  deriving DecidableEq, Repr

/-- The wording of each failure. -/
def ServiceError.message : ServiceError → String
  | .engine error => error.message
  | .internal error => error.message

end ScriptAnalysis
