import ScriptAnalysis.Command.Transcript
import ScriptAnalysis.Session
import ScriptAnalysis.Text.Lines

/-!
# The serve command

`Serve.run` answers the lines of a text in one session. `Serve.answer` is one step of
it, for a caller who reads the lines one at a time.
-/

namespace ScriptAnalysis.Serve

variable {σ : Type}

/-- The response to a line, as far as it has one. -/
def written (response : Option Response) : List Emission :=
  response.toList.map fun response => .output (response.text ++ "\n")

/-- Answer a line, and go on from the session after it. -/
def answer (backend : Backend σ) (line : String) (session : Session σ) :
    List Emission × Session σ :=
  let step := session.step backend line
  (step.emissions ++ written step.value.1, step.value.2)

/-- Answer lines one after the other. -/
def answerAll (backend : Backend σ) :
    List String → Session σ → List Emission × Session σ
  | [], session => ([], session)
  | line :: rest, session =>
      let (first, next) := answer backend line session
      let (others, final) := answerAll backend rest next
      (first ++ others, final)

/-- Answer all lines of an input. -/
def run (backend : Backend σ) (options : HostOptions) (input : String) : Transcript :=
  let started : Traced (Session σ) := Session.start options
  let (emissions, final) := answerAll backend (Text.lines input) started.value
  ⟨started.emissions ++ emissions ++ final.finish.emissions, 0⟩

end ScriptAnalysis.Serve
