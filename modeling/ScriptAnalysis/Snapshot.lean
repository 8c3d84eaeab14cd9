import ScriptAnalysis.ContentHash
import ScriptAnalysis.Position
import ScriptAnalysis.SourcePath
import ScriptAnalysis.Text.Blank
import ScriptAnalysis.Text.Offsets

/-!
# Snapshots

A `Snapshot` is the text of one script at one moment, beside its version and the byte
offsets at which its lines begin. `capture` computes both from the text. A snapshot
answers what a line holds and which position a byte offset has.
-/

namespace ScriptAnalysis

/-- The captured text of a script. -/
structure Snapshot where
  path : SourcePath
  version : ContentHash
  text : String
  /-- The byte offset at which each line begins. -/
  lineStarts : List Nat
  deriving DecidableEq, Repr

namespace Snapshot

/-- The offset after each line feed. -/
def breaksAfter (chars : List Char) : List Nat :=
  (Text.withOffsets 0 chars).filterMap fun (offset, c) =>
    if c = '\n' then some (offset + 1) else none

/-- The byte offsets at which the lines of a text begin. The first line begins at zero,
and every line feed opens one more line. -/
def lineStartsOf (text : String) : List Nat :=
  0 :: breaksAfter text.toList

/-- Take a snapshot of a text. -/
def capture (path : SourcePath) (text : String) : Snapshot where
  path := path
  version := ContentHash.ofText text
  text := text
  lineStarts := lineStartsOf text

/-- The number of bytes of the text. -/
def length (snapshot : Snapshot) : Nat :=
  Text.byteLength snapshot.text.toList

/-- The number of lines. -/
def lineCount (snapshot : Snapshot) : Nat :=
  snapshot.lineStarts.length

/-- A character that breaks a line. -/
def isBreak (c : Char) : Bool :=
  c == '\n' || c == '\r'

/-- The characters of a line without the breaks at its end. -/
def line? (snapshot : Snapshot) (index : Nat) : Option (List Char) :=
  match snapshot.lineStarts[index]? with
  | none => none
  | some start =>
      let stop := snapshot.lineStarts[index + 1]?.getD snapshot.length
      (Text.slice start stop snapshot.text.toList).map (Text.trimEnd isBreak)

/-- All lines with their indices. -/
def lines (snapshot : Snapshot) : List (Nat × List Char) :=
  (List.range snapshot.lineCount).filterMap fun index =>
    (snapshot.line? index).map fun line => (index, line)

/-- The position of a byte offset: the last line that begins at or before it, and the
number of characters that begin on that line before it. An offset inside a character
comes after the beginning of that character, and an offset beyond the text stands for
the end of the text. -/
def positionAt (snapshot : Snapshot) (offset : Nat) : Position :=
  let offset := min offset snapshot.length
  let line := (snapshot.lineStarts.filter fun start => start ≤ offset).length - 1
  let start := snapshot.lineStarts[line]?.getD 0
  let before := (Text.withOffsets 0 snapshot.text.toList).countP fun (place, _) =>
    start ≤ place && place < offset
  Position.ofNat line before

end Snapshot

end ScriptAnalysis
