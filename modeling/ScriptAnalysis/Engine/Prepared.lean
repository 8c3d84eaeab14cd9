import ScriptAnalysis.Engine

/-!
# The prepared engine

An engine whose answers are laid down beforehand, one for each query and the same for
every file. It never asks its host anything.
-/

namespace ScriptAnalysis

/-- An answer that is laid down beforehand. -/
inductive PreparedAnswer (α : Type) where
  | answer (result : α)
  /-- The file in question counts as missing. -/
  | missing
  | failure (message : String)

/-- The outcome of a query about a file. -/
def PreparedAnswer.outcome {α : Type} (file : SourcePath) :
    PreparedAnswer α → Except EngineError α
  | .answer result => .ok result
  | .missing => .error (.missingSource file)
  | .failure message => .error (.failure message)

/-- The answers to all four queries. -/
structure PreparedAnswers where
  declaration : PreparedAnswer (List EngineDiagnostic)
  semantic : PreparedAnswer (List EngineDiagnostic)
  syntactic : PreparedAnswer (List EngineDiagnostic)
  completions : PreparedAnswer (List CompletionEntry)

namespace PreparedAnswers

/-- Nothing to report and nothing to offer. -/
def empty : PreparedAnswers :=
  ⟨.answer [], .answer [], .answer [], .answer []⟩

/-- The engine that gives these answers. -/
def engine (answers : PreparedAnswers) : Engine Unit where
  create _ := ()
  declaration file _ := .done (answers.declaration.outcome file, ())
  semantic file _ := .done (answers.semantic.outcome file, ())
  syntactic file _ := .done (answers.syntactic.outcome file, ())
  completions file _ _ := .done (answers.completions.outcome file, ())

end PreparedAnswers

end ScriptAnalysis
