import ScriptAnalysis.Config.Settings
import ScriptAnalysis.Snapshot
import ScriptAnalysis.Token

/-!
# Lint rules

A `LintRule` looks at one snapshot and lists what it dislikes, in the order of the script.
The built-in rules are about blanks at the end of a line, `debugger` statements and
lines that are too long.
-/

namespace ScriptAnalysis

/-- One thing that a rule dislikes. -/
structure LintFinding where
  message : String
  position : Position
  deriving DecidableEq, Repr

/-- A check of one script. The name or the code may stand in a list of allowed rules. -/
structure LintRule where
  code : String
  /-- A short name in small letters. -/
  name : String
  description : String
  check : LintConfig → Snapshot → List LintFinding

namespace LintRule

/-- Spaces and tabs. -/
def isTrailing (c : Char) : Bool :=
  c == ' ' || c == '\t'

/-- The finding for a line that ends in spaces or tabs, at the first of them. -/
def trailingIn (index : Nat) (line : List Char) : Option LintFinding :=
  let trimmed := Text.trimEnd isTrailing line
  if trimmed.length = line.length then none
  else some ⟨"trailing whitespace", .ofNat index trimmed.length⟩

/-- No line ends in spaces or tabs. The break at the end of a line does not count. -/
def trailingWhitespace : LintRule where
  code := "L101"
  name := "trailing-whitespace"
  description := "whitespace at the end of a line"
  check _ snapshot := snapshot.lines.filterMap fun (index, line) => trailingIn index line

/-- The tokens that are a `debugger` keyword and not a member after a dot. -/
def debuggerTokens (previous : Option TokenKind) : List Token → List Token
  | [] => []
  | token :: rest =>
      let others := debuggerTokens (some token.kind) rest
      if token.kind = .identifier ∧ token.text = "debugger" ∧
          previous ≠ some (.punctuation '.') then
        token :: others
      else others

/-- No `debugger` statement is left in the script. -/
def noDebugger : LintRule where
  code := "L102"
  name := "no-debugger"
  description := "debugger statement left in code"
  check _ snapshot :=
    (debuggerTokens none (tokenize snapshot.text)).map fun token =>
      ⟨"use of debugger statement", snapshot.positionAt token.start⟩

/-- The finding for a line that is too long, at the first character beyond the limit. -/
def tooLong (limit index : Nat) (line : List Char) : Option LintFinding :=
  if limit < line.length then
    some ⟨"exceeds maximum line length of " ++ toString limit ++ " (" ++
      toString line.length ++ " characters)", .ofNat index limit⟩
  else none

/-- No line has more characters than the configuration allows. -/
def maxLineLength : LintRule where
  code := "L103"
  name := "max-line-length"
  description := "line exceeds the configured maximum length"
  check config snapshot :=
    snapshot.lines.filterMap fun (index, line) => tooLong config.maxLineLength index line

/-- The rules that every linter has. -/
def builtin : List LintRule :=
  [trailingWhitespace, noDebugger, maxLineLength]

theorem mem_builtin {rule : LintRule} :
    rule ∈ builtin ↔ rule = trailingWhitespace ∨ rule = noDebugger ∨ rule = maxLineLength := by
  simp [builtin]

/-- The built-in rule with a code. -/
def withCode? (code : String) : Option LintRule :=
  builtin.find? fun rule => rule.code == code

end LintRule

end ScriptAnalysis
