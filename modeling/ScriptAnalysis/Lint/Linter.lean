import ScriptAnalysis.Diagnostic.Report
import ScriptAnalysis.Lint.Rule

/-!
# The linter

A `Linter` runs every rule that is not allowed and lists all findings by position.
Findings at one position stand in the order in which their rules were registered.
-/

namespace ScriptAnalysis

/-- Registered rules and their configuration. -/
structure Linter where
  rules : List LintRule
  config : LintConfig

namespace Linter

/-- The linter with the built-in rules. -/
def ofConfig (config : LintConfig) : Linter :=
  ⟨LintRule.builtin, config⟩

/-- Register one more rule. -/
def register (linter : Linter) (rule : LintRule) : Linter :=
  { linter with rules := linter.rules ++ [rule] }

/-- Whether the configuration allows what the rule forbids. -/
def isAllowed (linter : Linter) (rule : LintRule) : Bool :=
  linter.config.allow.contains rule.name || linter.config.allow.contains rule.code

/-- The rules that are run, in the order of registration. -/
def enabled (linter : Linter) : List LintRule :=
  linter.rules.filter fun rule => !linter.isAllowed rule

/-- What the enabled rules find, rule after rule, each finding beside its rule's name. -/
def findings (linter : Linter) (snapshot : Snapshot) : List (String × LintFinding) :=
  linter.enabled.flatMap fun rule =>
    (rule.check linter.config snapshot).map fun finding => (rule.name, finding)

/-- Whether a finding does not stand after another one. -/
def notAfter (left right : String × LintFinding) : Bool :=
  left.2.position.atMost right.2.position

/-- All findings as diagnostics, by position. The sort is stable. -/
def run (linter : Linter) (snapshot : Snapshot) : List Diagnostic :=
  ((linter.findings snapshot).mergeSort notAfter).map fun (name, finding) =>
    Diagnostic.lint name finding.message (some finding.position)

end Linter

end ScriptAnalysis
