import ScriptAnalysis.Store

/-!
# Stores of files read beforehand

`KnownFiles` is a store that knows the outcome of some reads and has no directories. A
computation over it is trustworthy once nothing that it read was unknown; `unknown`
lists what has to be read before it is run again.
-/

namespace ScriptAnalysis

/-- Paths with the outcomes of reading them. -/
structure KnownFiles where
  outcomes : List (SourcePath × ReadOutcome)

namespace KnownFiles

/-- Nothing is known. -/
def empty : KnownFiles := ⟨[]⟩

/-- The outcome of a read, if it is known. -/
def find? (known : KnownFiles) (path : SourcePath) : Option ReadOutcome :=
  (known.outcomes.find? fun entry => entry.1 == path).map (·.2)

/-- Learn the outcome of a read. -/
def learn (known : KnownFiles) (path : SourcePath) (outcome : ReadOutcome) : KnownFiles :=
  ⟨(path, outcome) :: known.outcomes⟩

/-- The store; what is not known counts as absent. -/
def store (known : KnownFiles) : SourceStore where
  read path := (known.find? path).getD .absent
  isDirectory _ := false
  entryNames _ := []
  nesting := 0

/-- The paths that were read without being known. -/
def unknown (known : KnownFiles) (events : List Event) : List SourcePath :=
  events.filterMap fun event =>
    match event with
    | .read path => if (known.find? path).isSome then none else some path
    | _ => none

end KnownFiles

end ScriptAnalysis
