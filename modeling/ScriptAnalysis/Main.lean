import ScriptAnalysis.Command.Run
import ScriptAnalysis.Store.Known

/-!
# The program

The outer layer: it reads the command line, the environment, standard input and the files
that a command asks for, and prints what the command has written. A command is run
again until every file that it reads is known.
-/

namespace ScriptAnalysis.Program

/-- What is printed for a request for help, and for a command line that is misused. -/
def usage : String :=
  "Usage: quill [OPTIONS] check [--root DIR] [--format text|json] FILES...\n" ++
    "       quill [OPTIONS] serve\n\n" ++
    "Options: -q, --quiet; -v, --verbose; --case-insensitive; --toolchain-dir DIR;\n" ++
    "         -h, --help; -V, --version\n"

/-- The outcome of a failed read. -/
def failedRead (error : IO.Error) : ReadOutcome :=
  match error with
  | .noFileOrDirectory _ _ _ => .absent
  | .inappropriateType _ code details =>
      .unreadable (details ++ " (os error " ++ toString code ++ ")")
  | .permissionDenied _ code details =>
      .unreadable (details ++ " (os error " ++ toString code ++ ")")
  | other => .unreadable (toString other)

/-- Read a file. -/
def readFile (path : SourcePath) : IO ReadOutcome := do
  try
    let content ← IO.FS.readBinFile path.text
    match String.fromUTF8? content with
    | some text => return .found text
    | none => return .unreadable "stream did not contain valid UTF-8"
  catch error => return failedRead error

/-- Run a computation over files until it reads none that is unknown. -/
partial def settle {α : Type} (known : KnownFiles) (compute : SourceStore → List Event × α) :
    IO α := do
  let (events, result) := compute known.store
  match known.unknown events with
  | [] => return result
  | paths =>
      let mut more := known
      for path in paths do
        more := more.learn path (← readFile path)
      settle more compute

/-- Print what was written. -/
def emit (filter : LogFilter) (emissions : List Emission) : IO Unit := do
  let out ← IO.getStdout
  let err ← IO.getStderr
  for emission in emissions do
    err.putStr (emission.stderr filter)
    out.putStr emission.stdout
  out.flush

/-- The events among emissions. -/
def eventsOf (emissions : List Emission) : List Event :=
  (Transcript.mk emissions 0).events

/-- Answer the lines of standard input until it ends. -/
partial def serveLines (filter : LogFilter) (session : Session Unit) : IO (Session Unit) := do
  let read ← (← IO.getStdin).getLine
  match Text.lines read with
  | [] => return session
  | line :: _ =>
      let (emissions, next) ← settle .empty fun store =>
        let answered := Serve.answer (Invocation.backend store) line session
        (eventsOf answered.1, answered)
      emit filter emissions
      serveLines filter next

/-- Do what a command line asks for, and return the exit code. -/
def execute (invocation : Invocation) : IO UInt32 := do
  let filter := invocation.logFilter (← IO.getEnv "QUILL_LOG")
  let executable : SourcePath := ⟨(← IO.appPath).toString⟩
  let toolchain := (executable.parent.map fun directory => directory.join ⟨"lib"⟩).getD ⟨"lib"⟩
  match invocation.task with
  | .check _ _ _ =>
      let workingDirectory : SourcePath := ⟨(← IO.currentDir).toString⟩
      let transcript ← settle .empty fun store =>
        let transcript := invocation.run ⟨store, workingDirectory, toolchain, ""⟩
        (transcript.events, transcript)
      emit filter transcript.emissions
      return UInt32.ofNat transcript.exitCode
  | .serve =>
      let started : Traced (Session Unit) := Session.start (invocation.hostOptions toolchain)
      emit filter started.emissions
      let final ← serveLines filter started.value
      emit filter final.finish.emissions
      return 0

end ScriptAnalysis.Program

/-- Run the program. -/
def main (arguments : List String) : IO UInt32 := do
  match ScriptAnalysis.Arguments.read arguments with
  | .error .help =>
      IO.print ScriptAnalysis.Program.usage
      return 0
  | .error .version =>
      IO.print ScriptAnalysis.versionLine
      return 0
  | .error .misuse =>
      IO.eprint ScriptAnalysis.Program.usage
      return 2
  | .ok invocation => ScriptAnalysis.Program.execute invocation
