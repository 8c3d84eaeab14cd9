import ScriptAnalysis.Command.Check
import ScriptAnalysis.Command.Serve
import ScriptAnalysis.Engine.Delimiter

/-!
# Running a command line

`Invocation.run` does what a command line asks for, with the delimiter engine and over a
store that stands still. The transcript is complete: nothing else is read or written.
-/

namespace ScriptAnalysis

/-- What a command finds when it begins. -/
structure Surroundings where
  store : SourceStore
  workingDirectory : SourcePath
  /-- Where the default libraries are, unless the command line says so. -/
  toolchainDirectory : SourcePath
  /-- Everything on standard input. -/
  input : String

namespace Invocation

/-- What holds for every project of the run. -/
def hostOptions (invocation : Invocation) (toolchainDirectory : SourcePath) : HostOptions where
  caseSensitiveFileNames := !invocation.caseInsensitive
  toolchainDirectory := invocation.toolchainDirectory.getD toolchainDirectory

/-- What every command works with. -/
def backend (store : SourceStore) : Backend Unit :=
  Backend.overStore store DelimiterEngine.engine

/-- Do what the command line asks for. -/
def run (surroundings : Surroundings) (invocation : Invocation) : Transcript :=
  let options := invocation.hostOptions surroundings.toolchainDirectory
  match invocation.task with
  | .check root files format =>
      Check.run (backend surroundings.store) options surroundings.workingDirectory
        invocation.quiet root files format
  | .serve => Serve.run (backend surroundings.store) options surroundings.input

/-- The filter for the log, given the setting of the environment. -/
def logFilter (invocation : Invocation) (setting : Option String) : LogFilter :=
  LogFilter.ofSetting setting invocation.quiet invocation.verbose

end Invocation

/-- The line that tells the version. -/
def versionLine : String :=
  "quill " ++ version ++ "\n"

end ScriptAnalysis
