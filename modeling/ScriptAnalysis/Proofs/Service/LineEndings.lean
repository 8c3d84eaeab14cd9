import ScriptAnalysis.Proofs.Balance.Alike
import ScriptAnalysis.Proofs.Service.Pointing
import ScriptAnalysis.Proofs.Token.LineEndings

/-!
# Reports and line endings

Carriage returns before the line feeds of a text change neither the positions of its places nor the
lines that rules look at. So two texts that differ in them alone get the same report as soon as
their tokens match, which fails for strings only that go on over an escaped line feed
(`Project.diagnostics_line_endings`).
-/

namespace ScriptAnalysis

open Text (withReturns returned SamePlace)

variable {text : String} {file : SourcePath}

namespace Snapshot

/-- A place keeps its position. -/
theorem positionAt_withReturns {offset other : Nat} (file : SourcePath)
    (place : SamePlace text.toList offset other) :
    (capture file (withReturns text)).positionAt other =
      (capture file text).positionAt offset := by
  obtain ⟨before, after, whole, rfl, rfl⟩ := place
  have whole' : (withReturns text).toList = returned before ++ returned after := by
    rw [Text.toList_withReturns, whole, Text.returned_append]
  rw [positionAt_capture file whole, positionAt_capture file whole', Text.count_returned,
    Text.lastLine_returned]

/-- Every line is shown as before. -/
theorem lines_withReturns (file : SourcePath) (text : String) :
    (capture file (withReturns text)).lines = (capture file text).lines := by
  rw [lines_capture, lines_capture, Text.toList_withReturns,
    Text.map_trimEnd_linesOf_returned (by decide)]

end Snapshot

/-- Matching tokens are alike. -/
theorem Piece.Matches.alike {script : List Char} {token other : Token}
    (matching : Matches script token other) : token.Alike (SamePlace script) other :=
  ⟨matching.kind, matching.name, matching.place⟩

namespace Balance

/-- Two findings of one kind at one place of a script. -/
structure Matches (script : List Char) (finding other : Finding) : Prop where
  imbalance : other.imbalance = finding.imbalance
  place : SamePlace script finding.offset other.offset

/-- Matching tokens have matching findings. -/
theorem matches_walk {script : List Char} {size size' : Nat} {tokens tokens' : List Token}
    (matching : List.Forall₂ (Piece.Matches script) tokens tokens')
    (ends : SamePlace script size size') (opened : List Bracket) :
    List.Forall₂ (Matches script) (walk size opened tokens) (walk size' opened tokens') := by
  have alike := matching.imp fun _ _ same => same.alike
  exact (alike_walk alike ends opened).imp fun _ _ same => ⟨same.imbalance, same.place⟩

/-- A string without its end is reported wherever it stands. -/
theorem mem_walk_of_openString {tokens : List Token} {token : Token} (member : token ∈ tokens)
    (kind : token.kind = .string false) (size : Nat) (opened : List Bracket) :
    ⟨.openString, token.start⟩ ∈ walk size opened tokens := by
  induction tokens generalizing opened with
  | nil => cases member
  | cons first rest inductionHypothesis =>
      rw [walk_cons]
      rcases List.mem_cons.mp member with rfl | later
      · have found : (step size token opened).1 = [⟨.openString, token.start⟩] := by
          simp only [step, kind]
        rw [found]
        exact List.mem_append_left _ (List.mem_singleton_self _)
      · exact List.mem_append_right _ (inductionHypothesis later _)

end Balance

/-- Unless a string goes on over a line feed, the tokens match. -/
theorem matches_tokenize (cut : ∀ token ∈ tokenize text, ¬ token.IsContinued) :
    List.Forall₂ (Piece.Matches text.toList) (tokenize text) (tokenize (withReturns text)) := by
  have scanned := Piece.scan_returned [] cut
  rwa [← Text.toList_withReturns] at scanned

/-- Then what is out of balance is the same. -/
theorem syntacticEntries_withReturns (file : SourcePath)
    (cut : ∀ token ∈ tokenize text, ¬ token.IsContinued) :
    syntacticEntries (Snapshot.capture file (withReturns text)) =
      syntacticEntries (Snapshot.capture file text) := by
  have ends : SamePlace text.toList (Text.byteLength text.toList)
      (Text.byteLength (withReturns text).toList) :=
    ⟨text.toList, [], (List.append_nil _).symm, rfl, by rw [Text.toList_withReturns]⟩
  have found := Balance.matches_walk (matches_tokenize cut) ends []
  refine map_eq_map_of_forall₂ found fun finding other matching => ?_
  rw [matching.imbalance, Snapshot.positionAt_withReturns file matching.place]

namespace LintRule

/-- Then every rule finds the same. -/
theorem check_withReturns (file : SourcePath)
    (cut : ∀ token ∈ tokenize text, ¬ token.IsContinued) {rule : LintRule}
    (known : rule ∈ builtin) (config : LintConfig) :
    rule.check config (Snapshot.capture file (withReturns text)) =
      rule.check config (Snapshot.capture file text) := by
  have lines := Snapshot.lines_withReturns file text
  rcases mem_builtin.mp known with rfl | rfl | rfl
  · simp only [trailingWhitespace, lines]
  · have alike := (matches_tokenize cut).imp fun _ _ same => same.alike
    have keywords := alike_debuggerTokens alike none
    refine map_eq_map_of_forall₂ keywords fun token other matching => ?_
    rw [Snapshot.positionAt_withReturns file matching.place]
  · simp only [maxLineLength, lines]

end LintRule

/-- Then the whole report is the same. -/
theorem statelessReport_withReturns (lint : Option LintConfig) (file : SourcePath)
    (cut : ∀ token ∈ tokenize text, ¬ token.IsContinued) :
    statelessReport [] (lint.map Linter.ofConfig) file (some (withReturns text)) =
      statelessReport [] (lint.map Linter.ofConfig) file (some text) :=
  statelessReport_congr (syntacticEntries_withReturns file cut)
    (fun config _ known => LintRule.check_withReturns file cut known config) lint

theorem Imbalance.eq_openString {imbalance : Imbalance}
    (same : imbalance.label = Imbalance.openString.label) : imbalance = .openString := by
  by_contra other
  have differ : imbalance.label.toList ≠ Imbalance.openString.label.toList := by
    cases imbalance with
    | openString => exact absurd rfl other
    | unclosed bracket => cases bracket <;> decide +kernel
    | _ => decide +kernel
  exact differ (congrArg String.toList same)

/-- A report complains about a string exactly if a string has no end. -/
theorem openString_reported_iff (lint : Option LintConfig) (file : SourcePath) (text : String) :
    (∃ diagnostic ∈ (statelessReport [] (lint.map Linter.ofConfig) file (some text)).errors,
      diagnostic.kind = .syntactic ∧ diagnostic.message = Imbalance.openString.label) ↔
      ∃ token ∈ tokenize text, token.kind = .string false := by
  have entry : ∀ finding : Balance.Finding, (Diagnostic.compiler .syntactic
      ⟨finding.imbalance.code⟩ finding.imbalance.message
        (some ((Snapshot.capture file text).positionAt finding.offset))).message =
          finding.imbalance.label := fun finding => finding.imbalance.label_eq
  rw [statelessReport_some]
  constructor
  · rintro ⟨diagnostic, reported, syntactic, message⟩
    simp only at reported
    split at reported
    · -- Everything that the linter finds is of another kind.
      cases lint with
      | none => cases reported
      | some config =>
          obtain ⟨_, _, rfl⟩ := List.mem_map.mp reported
          cases syntactic
    · obtain ⟨finding, found, rfl⟩ := List.mem_map.mp reported
      rw [entry] at message
      have open' := Imbalance.eq_openString message
      cases Balance.blames_walk found with
      | openString member kind => exact ⟨_, member, kind⟩
      | _ => cases open'
  · rintro ⟨token, member, kind⟩
    have found := Balance.mem_walk_of_openString member kind (Text.byteLength text.toList) []
    have reported := List.mem_map_of_mem (f := fun finding : Balance.Finding =>
      Diagnostic.compiler .syntactic ⟨finding.imbalance.code⟩ finding.imbalance.message
        (some ((Snapshot.capture file text).positionAt finding.offset))) found
    have some' : ¬ (syntacticEntries (Snapshot.capture file text)).isEmpty = true := by
      rw [List.isEmpty_iff]
      exact List.ne_nil_of_mem reported
    simp only [if_neg some']
    exact ⟨_, reported, rfl, entry _⟩

namespace Project

/-- Carriage returns before the line feeds of a text leave the report on it as it is, unless a
string goes on over a line feed. In a text in which every string is closed that is the only
exception: there such a string is reported, once the backslash before the line feed takes the
return instead. -/
theorem diagnostics_line_endings {store otherStore : SourceStore} {file : SourcePath}
    {code otherCode text : String} {project other : Project Unit}
    (poses : project.Poses store file code text)
    (otherPoses : other.Poses otherStore file otherCode (withReturns text))
    (lint : Option LintConfig) (linted : project.linter = lint.map Linter.ofConfig)
    (otherLinted : other.linter = lint.map Linter.ofConfig) :
    ∃ report otherReport,
      (project.diagnostics store DelimiterEngine.engine file code).value.1 = .ok report ∧
      (other.diagnostics otherStore DelimiterEngine.engine file otherCode).value.1 =
        .ok otherReport ∧
      ((∀ token ∈ tokenize text, ¬ token.IsContinued) → otherReport = report) ∧
      ((∀ token ∈ tokenize text, token.kind ≠ .string false) →
        (otherReport = report ↔ ∀ token ∈ tokenize text, ¬ token.IsContinued)) := by
  refine ⟨_, _, poses.diagnostics_value, otherPoses.diagnostics_value, ?_⟩
  rw [linted, otherLinted, Text.isEmpty_withReturns]
  split
  · next empty =>
      have nothing : tokenize text = [] := by
        rw [String.isEmpty_iff.mp empty]
        exact Piece.scan_nil 0
      simp [nothing]
  · have same : (∀ token ∈ tokenize text, ¬ token.IsContinued) → _ :=
      statelessReport_withReturns lint file
    refine ⟨same, fun closed => ⟨fun equal => ?_, same⟩⟩
    by_contra continued
    push Not at continued
    obtain ⟨token, member, unclosed⟩ := Piece.exists_cut_string closed continued 0
    rw [← Text.toList_withReturns, ← Piece.tokenize_eq_scan] at member
    have reported := (openString_reported_iff lint file (withReturns text)).mpr
      ⟨token, member, unclosed⟩
    rw [equal, openString_reported_iff] at reported
    obtain ⟨token, member, unclosed⟩ := reported
    exact closed token member unclosed

/-- A string and a bracket that lack their ends are reported where they were. -/
theorem diagnostics_line_endings_open_bracket :
    let project : Project Unit :=
      ⟨Host.create ⟨"/p"⟩ CompilationSettings.empty HostOptions.standard, (),
        some (Linter.ofConfig .standard), []⟩
    let answer text :=
      (project.diagnostics Tree.empty.store DelimiterEngine.engine ⟨"/p/a.ts"⟩ text).value.1
    let report : Report := ⟨[
      ⟨.syntactic, "TS1002: Unterminated string literal.", some ⟨1, 0⟩⟩,
      ⟨.syntactic, "TS1005: ')' expected.", some ⟨2, 0⟩⟩]⟩
    answer "f(\n'x\n" = .ok report ∧ answer (withReturns "f(\n'x\n") = .ok report := by
  intro project answer report
  have answered : answer "f(\n'x\n" = .ok report := by decide +kernel
  have poses : project.Poses Tree.empty.store ⟨"/p/a.ts"⟩ "f(\n'x\n" "f(\n'x\n" :=
    poses_push rfl (by decide) rfl
  have otherPoses : project.Poses Tree.empty.store ⟨"/p/a.ts"⟩ (withReturns "f(\n'x\n")
      (withReturns "f(\n'x\n") :=
    poses_push rfl (by rw [Text.isEmpty_withReturns]; decide) rfl
  obtain ⟨first, second, given, otherGiven, same, _⟩ :=
    diagnostics_line_endings poses otherPoses (some .standard) rfl rfl
  have uncut : ∀ token ∈ tokenize "f(\n'x\n", ¬ token.IsContinued := by
    have tokens : ∀ token ∈ tokenize "f(\n'x\n", '\n' ∉ token.lexeme := by decide +kernel
    exact fun token member continued => tokens token member continued.2
  have found : first = report := Except.ok.inj (given.symm.trans answered)
  exact ⟨answered, by rw [← found, ← same uncut]; exact otherGiven⟩

/-- A string that goes on over an escaped line feed is closed, and with a carriage return it is
not. -/
theorem diagnostics_differ_continued_string :
    let project : Project Unit :=
      ⟨Host.create ⟨"/p"⟩ CompilationSettings.empty HostOptions.standard, (),
        some (Linter.ofConfig .standard), []⟩
    let answer text :=
      (project.diagnostics Tree.empty.store DelimiterEngine.engine ⟨"/p/a.ts"⟩ text).value.1
    let text := "let a = 'x\\\ny';"
    '\r' ∉ text.toList ∧ answer text = .ok Report.clean ∧
      answer (withReturns text) = .ok ⟨[
        ⟨.syntactic, "TS1002: Unterminated string literal.", some ⟨0, 8⟩⟩,
        ⟨.syntactic, "TS1002: Unterminated string literal.", some ⟨1, 1⟩⟩]⟩ ∧
      answer (withReturns text) ≠ answer text := by
  decide +kernel

end Project

end ScriptAnalysis
