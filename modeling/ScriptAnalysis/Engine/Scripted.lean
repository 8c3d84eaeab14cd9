import ScriptAnalysis.Engine
import ScriptAnalysis.Text.Search

/-!
# The scripted engine

An engine that obeys marker words in the text of a file, so that every way a query can
end can be brought about from outside: `DECLARE_ERROR` makes a declaration finding,
`UNDEFINED` and `CHAINED` make semantic findings, `ENGINE_CRASH` makes the semantic query
fail, and `SYNTAX_ERROR` makes a syntactic finding.
-/

namespace ScriptAnalysis.ScriptedEngine

/-- Look at the text of a file, which must be there. -/
def onSource (file : SourcePath)
    (look : String → Except EngineError (List EngineDiagnostic)) :
    EngineAnswer Unit (List EngineDiagnostic) :=
  (Inquiry.snapshot file).bind fun
    | none => .done (.error (.missingSource file), ())
    | some snapshot => .done (look snapshot.text, ())

/-- A finding at the first place of a marker, if it is there. -/
def marker (file : SourcePath) (word : String) (code : UInt32) (message source : String) :
    List EngineDiagnostic :=
  match Text.find? word source with
  | some offset => [⟨code, .single message, some ⟨file, offset⟩⟩]
  | none => []

/-- A finding without a place whose message has an explanation. -/
def chained (source : String) : List EngineDiagnostic :=
  match Text.find? "CHAINED" source with
  | some _ =>
      [⟨2322, .link "Type 'A' is not assignable to type 'B'."
        [.single "Property 'x' is missing."], none⟩]
  | none => []

/-- Obey the marker of the declaration query. -/
def declaration (file : SourcePath) (_state : Unit) :
    EngineAnswer Unit (List EngineDiagnostic) :=
  onSource file fun source =>
    .ok (marker file "DECLARE_ERROR" 4025 "Exported variable has or is using private name."
      source)

/-- Obey the markers of the semantic query. -/
def semantic (file : SourcePath) (_state : Unit) :
    EngineAnswer Unit (List EngineDiagnostic) :=
  onSource file fun source =>
    if (Text.find? "ENGINE_CRASH" source).isSome then .error (.failure "scripted crash")
    else
      .ok (marker file "UNDEFINED" 2304 "Cannot find name 'UNDEFINED'." source ++
        chained source)

/-- Obey the marker of the syntactic query. -/
def syntactic (file : SourcePath) (_state : Unit) :
    EngineAnswer Unit (List EngineDiagnostic) :=
  onSource file fun source => .ok (marker file "SYNTAX_ERROR" 1005 "';' expected." source)

/-- The same candidates for every file. -/
def completions (_file : SourcePath) (_offset : Nat) (_state : Unit) :
    EngineAnswer Unit (List CompletionEntry) :=
  .done (.ok [⟨"zeta", "var", "1"⟩, ⟨"alpha", "keyword", "1"⟩, ⟨"beta", "var", "0"⟩], ())

/-- The engine; it remembers nothing between queries. -/
def engine : Engine Unit where
  create _ := ()
  declaration := declaration
  semantic := semantic
  syntactic := syntactic
  completions := completions

end ScriptAnalysis.ScriptedEngine
