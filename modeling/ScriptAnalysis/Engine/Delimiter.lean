import ScriptAnalysis.Balance
import ScriptAnalysis.Engine
import ScriptAnalysis.Text.Distinct

/-!
# The delimiter engine

The engine for when no language engine is there. It finds what is out of balance in a
script, and offers the names of the script as completions. It looks at nothing but
the snapshot that its host serves; a file without a snapshot has nothing to report.
-/

namespace ScriptAnalysis.DelimiterEngine

/-- Everything out of balance in the text of a file, as diagnostics. -/
def findings (file : SourcePath) (source : String) : List EngineDiagnostic :=
  (Balance.check source).map fun finding =>
    ⟨finding.imbalance.code, .single finding.imbalance.message, some ⟨file, finding.offset⟩⟩

/-- Whether the token ends at the offset or has it inside. -/
def isUnderCursor (offset : Nat) (token : Token) : Bool :=
  token.start < offset && offset ≤ token.stop

/-- The different names of a script in ascending order, apart from the one being typed at
the offset, which is offered only if it stands elsewhere too. -/
def names (source : String) (offset : Nat) : List String :=
  Text.sortedDistinct
    (((tokenize source).filter fun token =>
      token.kind == .identifier && !isUnderCursor offset token).map Token.text)

/-- The candidate for a name. -/
def candidate (name : String) : CompletionEntry :=
  ⟨name, "identifier", "0"⟩

/-- A query without findings. -/
def nothing (_file : SourcePath) (_state : Unit) : EngineAnswer Unit (List EngineDiagnostic) :=
  .done (.ok [], ())

/-- Check the balance of a file. -/
def syntactic (file : SourcePath) (_state : Unit) :
    EngineAnswer Unit (List EngineDiagnostic) :=
  (Inquiry.snapshot file).bind fun
    | none => .done (.ok [], ())
    | some snapshot =>
        let found := findings file snapshot.text
        .note (.balanceChecked file found.length) (.done (.ok found, ()))

/-- Offer the names of a file. -/
def completions (file : SourcePath) (offset : Nat) (_state : Unit) :
    EngineAnswer Unit (List CompletionEntry) :=
  (Inquiry.snapshot file).bind fun
    | none => .done (.ok [], ())
    | some snapshot => .done (.ok ((names snapshot.text offset).map candidate), ())

/-- The engine; it remembers nothing between queries. -/
def engine : Engine Unit where
  create _ := ()
  declaration := nothing
  semantic := nothing
  syntactic := syntactic
  completions := completions

end ScriptAnalysis.DelimiterEngine
