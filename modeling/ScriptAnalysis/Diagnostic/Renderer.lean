import ScriptAnalysis.Diagnostic.Report
import ScriptAnalysis.Snapshot

/-!
# Diagnostics for a terminal

`Renderer.render` writes a finding over several lines: a headline with its severity and
kind, the place, and the quoted line with a caret under the character.
-/

namespace ScriptAnalysis

/-- How findings are written. -/
structure Renderer where
  /-- Whether the line of a finding is quoted. -/
  showSource : Bool
  deriving DecidableEq, Repr

namespace Renderer

/-- Lint findings are warnings and all others are errors. -/
def severity (kind : DiagnosticKind) : String :=
  match kind with
  | .lint => "warning"
  | _ => "error"

/-- Blanks. -/
def blanks (count : Nat) : String :=
  String.ofList (List.replicate count ' ')

/-- A quoted line: its number in a gutter, its text, and a caret under the character. -/
def quote (position : Position) (line : List Char) : String :=
  let number := toString (position.line.toNat + 1)
  let gutter := blanks number.length
  gutter ++ " |\n" ++ number ++ " | " ++ String.ofList line ++ "\n" ++ gutter ++ " | " ++
    blanks position.character.toNat ++ "^\n"

/-- Write a finding about the file at `path`, whose text is `source` if it is known. -/
def render (renderer : Renderer) (path : SourcePath) (diagnostic : Diagnostic)
    (source : Option Snapshot) : String :=
  let headline := severity diagnostic.kind ++ "[" ++ diagnostic.kind.name ++ "]: " ++
    diagnostic.message ++ "\n"
  match diagnostic.position with
  | none => headline ++ "  --> " ++ path.text ++ "\n"
  | some position =>
      let place := headline ++ "  --> " ++ path.text ++ ":" ++ position.text ++ "\n"
      let line := (source.filter fun _ => renderer.showSource).bind fun snapshot =>
        snapshot.line? position.line.toNat
      match line with
      | none => place
      | some line => place ++ quote position line

end Renderer

end ScriptAnalysis
