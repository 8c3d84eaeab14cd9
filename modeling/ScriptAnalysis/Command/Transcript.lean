import ScriptAnalysis.Log.Filter
import ScriptAnalysis.Traced

/-!
# Transcripts

What a command does is written down as a `Transcript`: its events and the texts that it
prints, in one order. A log filter turns a transcript into the two output streams, of
which the second one carries the log.
-/

namespace ScriptAnalysis

/-- One thing that a command does. -/
inductive Emission where
  | event (happened : Event)
  /-- Text on standard output. -/
  | output (text : String)
  /-- Text on standard error. -/
  | complaint (text : String)
  deriving DecidableEq, Repr

namespace Emission

/-- The text on standard output. -/
def stdout : Emission → String
  | .output text => text
  | _ => ""

/-- The text on standard error, with the line of the log if the filter shows it. -/
def stderr (filter : LogFilter) : Emission → String
  | .event happened => String.join ((filter.lines [happened]).map fun line => line ++ "\n")
  | .complaint text => text
  | .output _ => ""

end Emission

/-- What a command did, and its exit code. -/
structure Transcript where
  emissions : List Emission
  exitCode : Nat
  deriving DecidableEq, Repr

namespace Transcript

/-- All events. -/
def events (transcript : Transcript) : List Event :=
  transcript.emissions.filterMap fun
    | .event happened => some happened
    | _ => none

/-- The whole standard output. -/
def stdout (transcript : Transcript) : String :=
  String.join (transcript.emissions.map Emission.stdout)

/-- The whole standard error. -/
def stderr (filter : LogFilter) (transcript : Transcript) : String :=
  String.join (transcript.emissions.map (Emission.stderr filter))

end Transcript

/-- The events of a computation as emissions. -/
def Traced.emissions {α : Type} (computation : Traced α) : List Emission :=
  computation.events.map Emission.event

end ScriptAnalysis
