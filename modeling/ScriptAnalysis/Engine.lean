import ScriptAnalysis.Host
import ScriptAnalysis.MessageChain

/-!
# Engines

An analysis engine answers four queries about a file. It sees a project only by asking
its host, so each query is an `Inquiry`: a result, or a question with a continuation for
every answer. `Inquiry.run` puts the questions to a host. An engine may keep a state of
its own between queries.
-/

namespace ScriptAnalysis

/-- Where a finding of an engine starts. -/
structure DiagnosticLocation where
  file : SourcePath
  /-- A byte offset into the file's text. -/
  start : Nat
  deriving DecidableEq, Repr

/-- A finding as an engine makes it. -/
structure EngineDiagnostic where
  code : UInt32
  message : MessageChain
  location : Option DiagnosticLocation

/-- One candidate for completing a name. -/
structure CompletionEntry where
  name : String
  /-- What the name stands for. -/
  kind : String
  /-- The key by which an editor sorts. -/
  sortText : String
  deriving DecidableEq, Repr

/-- Why an engine gives no answer. -/
inductive EngineError where
  /-- The host has no content for the file. -/
  | missingSource (file : SourcePath)
  /-- The offset is beyond the end of the file. -/
  | offsetOutOfRange (file : SourcePath) (offset : Nat)
  | failure (message : String)
  deriving DecidableEq, Repr

/-- The wording of each failure. -/
def EngineError.message : EngineError → String
  | .missingSource file => "could not find source file '" ++ file.text ++ "'"
  | .offsetOutOfRange file offset =>
      "offset " ++ toString offset ++ " is out of range for '" ++ file.text ++ "'"
  | .failure message => "analysis engine failure: " ++ message

/-- A computation that asks its host. -/
inductive Inquiry (α : Type) where
  | done (result : α)
  /-- Leave an event on the way. -/
  | note (event : Event) (next : Inquiry α)
  | ask (question : HostQuestion) (next : question.Answer → Inquiry α)

namespace Inquiry

variable {α β : Type}

/-- Put all questions to the host. -/
def run (store : SourceStore) : Inquiry α → Host → Traced (α × Host)
  | .done result, host => pure (result, host)
  | .note event next, host => do
      Traced.note event
      next.run store host
  | .ask question next, host => do
      let (answer, after) ← host.answer store question
      (next answer).run store after

/-- Continue with the result. -/
def bind : Inquiry α → (α → Inquiry β) → Inquiry β
  | .done result, next => next result
  | .note event rest, next => .note event (rest.bind next)
  | .ask question rest, next => .ask question fun answer => (rest answer).bind next

instance : Monad Inquiry where
  pure := .done
  bind := bind

/-- The snapshot of a file. -/
def snapshot (path : SourcePath) : Inquiry (Option Snapshot) :=
  .ask (.scriptSnapshot path) .done

end Inquiry

/-- What a query of an engine is: an inquiry that ends in an answer or a failure, and
in the engine's next state. -/
abbrev EngineAnswer (σ α : Type) := Inquiry (Except EngineError α × σ)

/-- An engine with states of type `σ`. -/
structure Engine (σ : Type) where
  /-- The state of a fresh engine for a project. -/
  create : SourcePath → σ
  declaration : SourcePath → σ → EngineAnswer σ (List EngineDiagnostic)
  semantic : SourcePath → σ → EngineAnswer σ (List EngineDiagnostic)
  syntactic : SourcePath → σ → EngineAnswer σ (List EngineDiagnostic)
  completions : SourcePath → Nat → σ → EngineAnswer σ (List CompletionEntry)

end ScriptAnalysis
