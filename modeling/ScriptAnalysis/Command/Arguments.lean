import ScriptAnalysis.SourcePath

/-!
# Command-line arguments

`Arguments.read` turns the words of a command line into an `Invocation`. Options common
to all commands may stand before and after the command's name. Words are read from left
to right: the first problem, or the first request for help or for the version, ends
the reading.
-/

namespace ScriptAnalysis

/-- How `check` writes its findings. -/
inductive ReportFormat where
  | text
  | json
  deriving DecidableEq, Repr

/-- The format with a name. -/
def ReportFormat.ofName? (name : String) : Option ReportFormat :=
  if name = "text" then some .text
  else if name = "json" then some .json
  else none

/-- What a command line asks for. -/
inductive Task where
  | check (root : SourcePath) (files : List SourcePath) (format : ReportFormat)
  | serve
  deriving DecidableEq, Repr

/-- A command line that has been read. -/
structure Invocation where
  quiet : Bool
  verbose : Bool
  caseInsensitive : Bool
  toolchainDirectory : Option SourcePath
  task : Task
  deriving DecidableEq, Repr

/-- Why no command is run. -/
inductive NoInvocation where
  | help
  | version
  | misuse
  deriving DecidableEq, Repr

namespace Arguments

/-- Where on the command line an option stands. -/
inductive Level where
  | top
  | check
  | serve
  deriving DecidableEq, Repr

/-- An option without a value. -/
inductive Switch where
  | quiet
  | verbose
  | caseInsensitive
  deriving DecidableEq, Repr

/-- An option with a value. -/
inductive Setting where
  | toolchainDirectory
  | root
  | format
  deriving DecidableEq, Repr

/-- Any option. -/
inductive Flag where
  | switch (switch : Switch)
  | setting (setting : Setting)
  | help
  | version
  deriving DecidableEq, Repr

/-- Whether an option is known at a level. -/
def Flag.isKnownAt : Level → Flag → Bool
  | .top, .version => true
  | _, .version => false
  | .check, .setting _ => true
  | _, .setting chosen => chosen == .toolchainDirectory
  | _, _ => true

/-- The options by their long names. -/
def longNames : List (String × Flag) :=
  [("quiet", .switch .quiet), ("verbose", .switch .verbose),
    ("case-insensitive", .switch .caseInsensitive),
    ("toolchain-dir", .setting .toolchainDirectory), ("root", .setting .root),
    ("format", .setting .format), ("help", .help), ("version", .version)]

/-- The options by their letters. -/
def letters : List (Char × Flag) :=
  [('q', .switch .quiet), ('v', .switch .verbose), ('r', .setting .root), ('f', .setting .format),
    ('h', .help), ('V', .version)]

/-- The option at a level with a long name. -/
def longFlag? (level : Level) (name : String) : Option Flag :=
  ((longNames.find? fun entry => entry.1 == name).map (·.2)).filter (Flag.isKnownAt level)

/-- The option at a level with a letter. -/
def shortFlag? (level : Level) (letter : Char) : Option Flag :=
  ((letters.find? fun entry => entry.1 == letter).map (·.2)).filter (Flag.isKnownAt level)

/-- What has been read at one level. -/
structure Draft where
  switches : List Switch
  toolchainDirectory : Option SourcePath
  root : Option SourcePath
  format : Option ReportFormat
  files : List SourcePath

/-- Nothing has been read. -/
def Draft.blank : Draft := ⟨[], none, none, none, []⟩

/-- A path; it must not be empty. -/
def readPath (value : String) : Except NoInvocation SourcePath :=
  if value.isEmpty then .error .misuse else .ok ⟨value⟩

namespace Draft

/-- Set a switch, which must not be set yet. -/
def switch (draft : Draft) (switch : Switch) : Except NoInvocation Draft :=
  if draft.switches.contains switch then .error .misuse
  else .ok { draft with switches := draft.switches ++ [switch] }

/-- Set a value, which must not be set yet. -/
def set (draft : Draft) (setting : Setting) (value : String) : Except NoInvocation Draft :=
  match setting with
  | .toolchainDirectory =>
      if draft.toolchainDirectory.isSome then .error .misuse
      else (readPath value).map fun path => { draft with toolchainDirectory := some path }
  | .root =>
      if draft.root.isSome then .error .misuse
      else (readPath value).map fun path => { draft with root := some path }
  | .format =>
      match draft.format, ReportFormat.ofName? value with
      | none, some format => .ok { draft with format := some format }
      | _, _ => .error .misuse

/-- Add a file. -/
def addFile (draft : Draft) (word : String) : Except NoInvocation Draft :=
  (readPath word).map fun path => { draft with files := draft.files ++ [path] }

end Draft

/-- The draft after a word, and the option whose value is the next word, if one is. -/
abbrev AfterWord := Draft × Option Setting

/-- Read an option with a long name, given what follows the dashes. -/
def readLong (level : Level) (body : List Char) (draft : Draft) :
    Except NoInvocation AfterWord :=
  let name := String.ofList (body.takeWhile (· ≠ '='))
  match longFlag? level name, body.dropWhile (· ≠ '=') with
  | some (.setting setting), [] => .ok (draft, some setting)
  | some (.setting setting), _ :: value =>
      (draft.set setting (String.ofList value)).map fun next => (next, none)
  | some (.switch switch), [] => (draft.switch switch).map fun next => (next, none)
  | some .help, [] => .error .help
  | some .version, [] => .error .version
  | _, _ => .error .misuse

/-- Read options given by letters. The rest of the word after the letter of an option with
a value is the value, with or without an equals sign. -/
def readLetters (level : Level) : List Char → Draft → Except NoInvocation AfterWord
  | [], draft => .ok (draft, none)
  | letter :: rest, draft =>
      match shortFlag? level letter with
      | some (.switch switch) =>
          match draft.switch switch with
          | .ok next => readLetters level rest next
          | .error stop => .error stop
      | some (.setting setting) =>
          match rest with
          | [] => .ok (draft, some setting)
          | '=' :: value =>
              (draft.set setting (String.ofList value)).map fun next => (next, none)
          | value => (draft.set setting (String.ofList value)).map fun next => (next, none)
      | some .help => .error .help
      | some .version => .error .version
      | none => .error .misuse

/-- Whether a word is read as options: it begins with a dash and is longer. -/
def isOption (word : String) : Bool :=
  match word.toList with
  | '-' :: _ :: _ => true
  | _ => false

/-- Read a word that consists of options. -/
def readOptions (level : Level) (word : String) (draft : Draft) :
    Except NoInvocation AfterWord :=
  match word.toList with
  | '-' :: '-' :: body => readLong level body draft
  | '-' :: body => readLetters level body draft
  | _ => .error .misuse

/-- Read a word that is no option: only `check` takes any. -/
def readWord (level : Level) (word : String) (draft : Draft) : Except NoInvocation Draft :=
  match level with
  | .check => draft.addFile word
  | _ => .error .misuse

/-- Read words that are no options. -/
def readWords (level : Level) : List String → Draft → Except NoInvocation Draft
  | [], draft => .ok draft
  | word :: rest, draft =>
      match readWord level word draft with
      | .ok next => readWords level rest next
      | .error stop => .error stop

/-- Read the words of a level. Options and other words may be mixed; after two dashes
nothing is an option. `pending` is an option whose value is the next word. -/
def readLevel (level : Level) :
    Option Setting → List String → Draft → Except NoInvocation Draft
  | none, [], draft => .ok draft
  | some _, [], _ => .error .misuse
  | some setting, word :: rest, draft =>
      if isOption word then .error .misuse
      else
        match draft.set setting word with
        | .ok next => readLevel level none rest next
        | .error stop => .error stop
  | none, word :: rest, draft =>
      if word = "--" then readWords level rest draft
      else if isOption word then
        match readOptions level word draft with
        | .ok (next, pending) => readLevel level pending rest next
        | .error stop => .error stop
      else
        match readWord level word draft with
        | .ok next => readLevel level none rest next
        | .error stop => .error stop

/-- What two levels together ask for. -/
def invocation (top inner : Draft) (task : Task) : Invocation where
  quiet := (top.switches ++ inner.switches).contains .quiet
  verbose := (top.switches ++ inner.switches).contains .verbose
  caseInsensitive := (top.switches ++ inner.switches).contains .caseInsensitive
  toolchainDirectory := inner.toolchainDirectory.or top.toolchainDirectory
  task := task

/-- The task that the words after `check` ask for. At least one file must be named. -/
def checkTask (draft : Draft) : Except NoInvocation Task :=
  if draft.files.isEmpty then .error .misuse
  else .ok (.check (draft.root.getD ⟨"."⟩) draft.files (draft.format.getD .text))

/-- Read what follows the name of a command. -/
def readCommand (top : Draft) (name : String) (rest : List String) :
    Except NoInvocation Invocation :=
  if name = "check" then
    match readLevel .check none rest .blank with
    | .error stop => .error stop
    | .ok inner => (checkTask inner).map (invocation top inner)
  else if name = "serve" then
    match readLevel .serve none rest .blank with
    | .error stop => .error stop
    | .ok inner => .ok (invocation top inner .serve)
  else if name = "help" then
    match rest with
    | [] => .error .help
    | [subject] =>
        if ["check", "serve", "help"].contains subject then .error .help else .error .misuse
    | _ => .error .misuse
  else .error .misuse

/-- Read a command line up to the name of the command, and then what follows it. -/
def readTop : Option Setting → List String → Draft → Except NoInvocation Invocation
  | _, [], _ => .error .misuse
  | some setting, word :: rest, draft =>
      if isOption word then .error .misuse
      else
        match draft.set setting word with
        | .ok next => readTop none rest next
        | .error stop => .error stop
  | none, word :: rest, draft =>
      if word = "--" then .error .misuse
      else if isOption word then
        match readOptions .top word draft with
        | .ok (next, pending) => readTop pending rest next
        | .error stop => .error stop
      else readCommand draft word rest

/-- Read a command line. -/
def read (words : List String) : Except NoInvocation Invocation :=
  readTop none words .blank

end Arguments

end ScriptAnalysis
