import ScriptAnalysis.SourcePath

/-!
# Events

What an observer of the service can notice besides its answers: every access to the
store, every question put to an engine, and every step worth a line in a log. The log
itself, with levels and wording, is a later reading of these events.
-/

namespace ScriptAnalysis

/-- A question that an engine is asked about a file. -/
inductive EngineQuery where
  | declaration
  | semantic
  | syntactic
  | completions (offset : Nat)
  deriving DecidableEq, Repr

/-- Something that happened while a request was served. -/
inductive Event where
  /-- The text of a file was read from the store. -/
  | read (path : SourcePath)
  /-- The entries of a directory were listed by the store. -/
  | listed (path : SourcePath)
  /-- A file is there but has no text. -/
  | unreadable (path : SourcePath) (reason : String)
  /-- A directory listing entered the cache. -/
  | cachedListing (directory : SourcePath) (subdirectories : Nat)
  /-- A snapshot left the cache because its file is missing or empty. -/
  | evicted (path : SourcePath)
  /-- A cache was told of a changed file. -/
  | fileChanged (path : SourcePath) (tracked : Bool)
  /-- A cache was told of a changed directory. -/
  | directoryChanged (directory : SourcePath) (files listings : Nat)
  /-- A project directory has no configuration file. -/
  | noConfiguration (directory : SourcePath)
  /-- A configuration file could not be used. -/
  | invalidConfiguration (file : SourcePath) (reason : String)
  /-- A project was built. -/
  | createdProject (root : SourcePath) (files errors : Nat) (lint : Bool)
  /-- A project took on a new configuration. -/
  | reconfiguredProject (root : SourcePath) (files errors : Nat)
  /-- A project could not be resolved again and stays as it was. -/
  | keptConfiguration (root : SourcePath) (reason : String)
  /-- All changes of a notification were applied. -/
  | appliedNotification (changes : Nat) (processed : Bool)
  /-- A diagnostics request ended without a report. -/
  | diagnosticsFailed (root file : SourcePath) (reason : String)
  /-- A completion request ended without a report. -/
  | completionsFailed (root file : SourcePath) (position : Nat) (reason : String)
  /-- An engine was built for a project. -/
  | createdEngine (root : SourcePath)
  /-- An engine was asked about a file. -/
  | asked (query : EngineQuery) (file : SourcePath)
  /-- The delimiters of a file were checked. -/
  | balanceChecked (file : SourcePath) (count : Nat)
  /-- An engine sent a message to its host. -/
  | engineTrace (root : SourcePath) (message : String)
  /-- An engine sent a complaint to its host. -/
  | engineComplaint (root : SourcePath) (message : String)
  /-- A request line could not be read. -/
  | rejectedRequest (reason : String)
  /-- A session began. -/
  | sessionOpened
  /-- A session ended. -/
  | sessionClosed (requests projects : Nat)
  /-- A command ended without doing its work. -/
  | commandFailed (reason : String)
  deriving DecidableEq, Repr

namespace Event

/-- Whether the event is the reading of a file. -/
def isRead : Event → Bool
  | .read _ => true
  | _ => false

/-- Whether the event is the listing of a directory. -/
def isListing : Event → Bool
  | .listed _ => true
  | _ => false

/-- The number of files read. -/
def reads (events : List Event) : Nat :=
  events.countP isRead

/-- The number of directories listed. -/
def listings (events : List Event) : Nat :=
  events.countP isListing

@[simp]
theorem reads_nil : reads [] = 0 := rfl

@[simp]
theorem listings_nil : listings [] = 0 := rfl

@[simp]
theorem reads_append (left right : List Event) :
    reads (left ++ right) = reads left + reads right := by
  simp [reads]

@[simp]
theorem listings_append (left right : List Event) :
    listings (left ++ right) = listings left + listings right := by
  simp [listings]

end Event

end ScriptAnalysis
