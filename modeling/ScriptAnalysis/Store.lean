import ScriptAnalysis.Traced

/-!
# Stores of source files

A `SourceStore` answers three questions about paths: what text is there, whether it is
a directory, and what entries the directory has. A missing file is an ordinary answer. The
store stands still while a request is served; reading and listing leave an event.
-/

namespace ScriptAnalysis

/-- The answer to a read. -/
inductive ReadOutcome where
  | found (text : String)
  | absent
  /-- Something is there that is no text; it counts as absent. -/
  | unreadable (reason : String)
  deriving DecidableEq, Repr

namespace ReadOutcome

/-- The text, if one was found. -/
def text? : ReadOutcome → Option String
  | .found text => some text
  | _ => none

/-- The text, if one was found and it is not empty. Empty files count as absent for
analysis. -/
def nonEmpty? (outcome : ReadOutcome) : Option String :=
  outcome.text?.filter fun text => !text.isEmpty

end ReadOutcome

/-- A store at one moment. -/
structure SourceStore where
  read : SourcePath → ReadOutcome
  isDirectory : SourcePath → Bool
  /-- The names of the entries of a directory, files and directories alike, sorted. -/
  entryNames : SourcePath → List String
  /-- No normal path of a directory has more components than this. -/
  nesting : Nat

namespace SourceStore

/-- Read the text of a file. -/
def readText (store : SourceStore) (path : SourcePath) : Traced (Option String) :=
  match store.read path with
  | .found text => ⟨some text, [.read path]⟩
  | .absent => ⟨none, [.read path]⟩
  | .unreadable reason => ⟨none, [.read path, .unreadable path reason]⟩

/-- Read the text of a file that is not empty. -/
def readNonEmpty (store : SourceStore) (path : SourcePath) : Traced (Option String) := do
  let text ← store.readText path
  pure (text.filter fun text => !text.isEmpty)

/-- List the entries of a directory. -/
def list (store : SourceStore) (path : SourcePath) : Traced (List String) :=
  ⟨store.entryNames path, [.listed path]⟩

@[simp]
theorem value_readText (store : SourceStore) (path : SourcePath) :
    (store.readText path).value = (store.read path).text? := by
  unfold readText
  split <;> simp_all [ReadOutcome.text?]

@[simp]
theorem value_readNonEmpty (store : SourceStore) (path : SourcePath) :
    (store.readNonEmpty path).value = (store.read path).nonEmpty? := by
  simp [readNonEmpty, ReadOutcome.nonEmpty?]

@[simp]
theorem value_list (store : SourceStore) (path : SourcePath) :
    (store.list path).value = store.entryNames path := rfl

end SourceStore

end ScriptAnalysis
