import ScriptAnalysis.Session.Response
import ScriptAnalysis.Text.Blank

/-!
# Sessions

A session answers the lines of its input one after the other, each before the next is
looked at, and passes over blank lines. All lines share one registry.
-/

namespace ScriptAnalysis

/-- A session: its projects and the number of lines answered so far. -/
structure Session (σ : Type) where
  registry : Registry σ
  answered : Nat

namespace Session

variable {σ : Type}

/-- Begin a session. -/
def start (options : HostOptions) : Traced (Session σ) := do
  Traced.note .sessionOpened
  pure ⟨Registry.empty options, 0⟩

/-- The response to a line, unless the line is blank. -/
def step (backend : Backend σ) (line : String) (session : Session σ) :
    Traced (Option Response × Session σ) :=
  if Text.allBlank line then pure (none, session)
  else do
    let (response, next) ← session.registry.answerLine backend line
    pure (some response, ⟨next, session.answered + 1⟩)

/-- End a session. -/
def finish (session : Session σ) : Traced Unit :=
  Traced.note (.sessionClosed session.answered session.registry.size)

end Session

end ScriptAnalysis
