import ScriptAnalysis.Proofs.Balance.Blame
import ScriptAnalysis.Proofs.Lint.Findings
import ScriptAnalysis.Proofs.Service.Posed
import ScriptAnalysis.Proofs.Snapshot.Position
import ScriptAnalysis.Proofs.Text.Bytes
import ScriptAnalysis.Proofs.Token.Pieces

/-!
# Where diagnostics point

Positions are made in three ways: from the byte offset of a token, from the length of a trimmed
line, and from a configured limit. `PointsAt` says of every diagnostic what stands at its position,
and whatever a request reports satisfies it (`Registry.diagnostics_point_at`).
-/

namespace ScriptAnalysis

/-- The message of the diagnostic with its code. -/
def Imbalance.label : Imbalance → String
  | .unclosed bracket => "TS1005: '" ++ bracket.closer.toString ++ "' expected."
  | .stray => "TS1128: Declaration or statement expected."
  | .openString => "TS1002: Unterminated string literal."
  | .openTemplate => "TS1160: Unterminated template literal."
  | .openComment => "TS1010: '*/' expected."

theorem Imbalance.label_eq (imbalance : Imbalance) :
    DiagnosticCode.label ⟨imbalance.code⟩ imbalance.message = imbalance.label := by
  cases imbalance with
  | unclosed bracket => cases bracket <;> rfl
  | _ => rfl

/-- What stands at the position of a diagnostic, one case for each that can be reported on a text.
A text behind a position goes up to the end of the line. -/
inductive PointsAt (lint : Option LintConfig) (snapshot : Snapshot) : Diagnostic → Prop where
  | stray {position : Position} {bracket : Bracket} {rest : List Char}
      (there : snapshot.ReadsFrom position (bracket.closer :: rest)) :
      PointsAt lint snapshot
        ⟨.syntactic, "TS1128: Declaration or statement expected.", some position⟩
  | unclosed {position : Position} {bracket : Bracket} {rest : List Char}
      (there : snapshot.ReadsFrom position (bracket.closer :: rest)) (expected : Bracket) :
      PointsAt lint snapshot
        ⟨.syntactic, "TS1005: '" ++ expected.closer.toString ++ "' expected.", some position⟩
  | unclosedAtEnd {position : Position} (there : snapshot.EndsAt position) (expected : Bracket) :
      PointsAt lint snapshot
        ⟨.syntactic, "TS1005: '" ++ expected.closer.toString ++ "' expected.", some position⟩
  | openString {position : Position} {quote : Char} {rest : List Char}
      (quotes : quote = '\x27' ∨ quote = '\x22')
      (there : snapshot.ReadsFrom position (quote :: rest)) :
      PointsAt lint snapshot
        ⟨.syntactic, "TS1002: Unterminated string literal.", some position⟩
  | openTemplate {position : Position} {rest : List Char}
      (there : snapshot.ReadsFrom position ('\x60' :: rest)) :
      PointsAt lint snapshot
        ⟨.syntactic, "TS1160: Unterminated template literal.", some position⟩
  | openComment {position : Position} (there : snapshot.EndsAt position) :
      PointsAt lint snapshot ⟨.syntactic, "TS1010: '*/' expected.", some position⟩
  | debugger {position : Position} {rest : List Char}
      (there : snapshot.ReadsFrom position ("debugger".toList ++ rest)) :
      PointsAt lint snapshot
        ⟨.lint, "no-debugger: use of debugger statement", some position⟩
  | trailing {position : Position} {c : Char} {rest : List Char} (blank : c = ' ' ∨ c = '\t')
      (there : snapshot.ReadsFrom position (c :: rest)) :
      PointsAt lint snapshot
        ⟨.lint, "trailing-whitespace: trailing whitespace", some position⟩
  | tooLong {config : LintConfig} (linted : lint = some config) {position : Position} {c : Char}
      {rest : List Char} (there : snapshot.ReadsFrom position (c :: rest))
      (beyond : position.character.toNat = config.maxLineLength) (length : Nat) :
      PointsAt lint snapshot
        ⟨.lint, "max-line-length: exceeds maximum line length of " ++
          toString config.maxLineLength ++ " (" ++ toString length ++ " characters)",
          some position⟩

section Positions

variable {file : SourcePath} {text : String} {lint : Option LintConfig}

/-- A token stands at the position of its offset. -/
theorem readsFrom_token (file : SourcePath) (small : Text.byteLength text.toList < UInt32.size)
    {token : Token} (member : token ∈ tokenize text) :
    ∃ after, Piece.Leads (.lexeme token.kind token.lexeme) after ∧
      (Snapshot.capture file text).ReadsFrom
        ((Snapshot.capture file text).positionAt token.start)
        ((token.lexeme ++ after).takeWhile (· ≠ '\n')) := by
  rw [Piece.tokenize_eq_scan] at member
  obtain ⟨before, after, whole, starts, _, leads⟩ := Piece.mem_scan member
  rw [Nat.zero_add] at starts
  rw [starts]
  exact ⟨after, leads, Snapshot.readsFrom_positionAt file small whole⟩

/-- So does its first character, if it is not a line feed. -/
theorem readsFrom_head (file : SourcePath) (small : Text.byteLength text.toList < UInt32.size)
    {token : Token} (member : token ∈ tokenize text) {c : Char} {taken : List Char}
    (shape : token.lexeme = c :: taken) (inLine : c ≠ '\n') :
    ∃ rest, (Snapshot.capture file text).ReadsFrom
      ((Snapshot.capture file text).positionAt token.start) (c :: rest) := by
  obtain ⟨after, _, there⟩ := readsFrom_token file small member
  rw [shape, List.cons_append, List.takeWhile_cons_of_pos (by simpa using inLine)] at there
  exact ⟨_, there⟩

/-- A finding of the check points at what it is about. -/
theorem pointsAt_blamed (file : SourcePath) (small : Text.byteLength text.toList < UInt32.size)
    {finding : Balance.Finding}
    (blames : Balance.Blames (Text.byteLength text.toList) (tokenize text) finding) :
    PointsAt lint (Snapshot.capture file text)
      (Diagnostic.compiler .syntactic ⟨finding.imbalance.code⟩ finding.imbalance.message
        (some ((Snapshot.capture file text).positionAt finding.offset))) := by
  have closer : ∀ token ∈ tokenize text, ∀ bracket : Bracket,
      token.kind = .punctuation bracket.closer →
        ∃ rest, (Snapshot.capture file text).ReadsFrom
          ((Snapshot.capture file text).positionAt token.start) (bracket.closer :: rest) := by
    intro token member bracket closes
    obtain ⟨_, leads, _⟩ := readsFrom_token file small member
    rw [closes] at leads
    exact readsFrom_head file small member leads.eq_of_punctuation (by cases bracket <;> decide)
  rw [Diagnostic.compiler, Imbalance.label_eq]
  cases blames with
  | stray member closes =>
      obtain ⟨rest, there⟩ := closer _ member _ closes
      exact .stray there
  | unclosed member closes expected =>
      obtain ⟨rest, there⟩ := closer _ member _ closes
      exact .unclosed there expected
  | unclosedAtEnd expected =>
      exact .unclosedAtEnd (Snapshot.endsAt_positionAt file small) expected
  | openString member opens =>
      obtain ⟨_, leads, _⟩ := readsFrom_token file small member
      rw [opens] at leads
      obtain ⟨quote, taken, shape, quotes, _⟩ := leads.quoted_of_string
      have inLine : quote ≠ '\n' := by rcases quotes with rfl | rfl <;> decide
      obtain ⟨rest, there⟩ := readsFrom_head file small member shape inLine
      exact .openString quotes there
  | openTemplate member opens =>
      obtain ⟨_, leads, _⟩ := readsFrom_token file small member
      rw [opens] at leads
      obtain ⟨taken, shape, _⟩ := leads.quoted_of_template
      obtain ⟨rest, there⟩ := readsFrom_head file small member shape (by decide)
      exact .openTemplate there
  | openComment => exact .openComment (Snapshot.endsAt_positionAt file small)

end Positions

section Lines

variable {file : SourcePath} {text : String} {lint : Option LintConfig}

/-- A position inside of a shown line is on the line of the text, and what follows there begins
with what follows in the shown line. -/
theorem readsFrom_shown (file : SourcePath) (small : Text.byteLength text.toList < UInt32.size)
    {index : Nat} {before after : List Char}
    (shown : (index, before ++ after) ∈ (Snapshot.capture file text).lines) :
    (Position.ofNat index before.length).character.toNat = before.length ∧
      ∃ breaks, (Snapshot.capture file text).ReadsFrom (Position.ofNat index before.length)
        (after ++ breaks) := by
  obtain ⟨line, there, trimmed⟩ := Snapshot.mem_lines_capture.mp shown
  obtain ⟨breaks, parts, _⟩ := Text.exists_eq_trimEnd_append Snapshot.isBreak line
  rw [trimmed, List.append_assoc] at parts
  have inside : before.length ≤ line.length := by
    rw [parts, List.length_append]
    exact Nat.le_add_right _ _
  obtain ⟨_, character, reads⟩ := Snapshot.readsFrom_ofNat file small there inside
  rw [parts, List.drop_left] at reads
  exact ⟨character, breaks, reads⟩

/-- What the rule about the ends of lines finds begins there. -/
theorem pointsAt_trailing (small : Text.byteLength text.toList < UInt32.size) {index : Nat}
    {line : List Char} (shown : (index, line) ∈ (Snapshot.capture file text).lines)
    {finding : LintFinding} (found : LintRule.trailingIn index line = some finding) :
    PointsAt lint (Snapshot.capture file text)
      (Diagnostic.lint LintRule.trailingWhitespace.name finding.message
        (some finding.position)) := by
  obtain ⟨blanks, parts, trailing⟩ := Text.exists_eq_trimEnd_append LintRule.isTrailing line
  rw [LintRule.trailingIn] at found
  split at found
  · cases found
  · next shorter =>
      cases found
      cases blanks with
      | nil =>
          rw [List.append_nil] at parts
          exact absurd (congrArg List.length parts.symm) shorter
      | cons c rest =>
          rw [parts] at shown
          obtain ⟨_, breaks, there⟩ := readsFrom_shown file small shown
          exact .trailing (LintRule.isTrailing_eq_true_iff.mp (trailing c List.mem_cons_self)) there

/-- What the rule about long lines finds is the first character beyond the limit. -/
theorem pointsAt_tooLong (small : Text.byteLength text.toList < UInt32.size) {config : LintConfig}
    (linted : lint = some config) {index : Nat} {line : List Char}
    (shown : (index, line) ∈ (Snapshot.capture file text).lines) {finding : LintFinding}
    (found : LintRule.tooLong config.maxLineLength index line = some finding) :
    PointsAt lint (Snapshot.capture file text)
      (Diagnostic.lint LintRule.maxLineLength.name finding.message (some finding.position)) := by
  rw [LintRule.tooLong] at found
  split at found
  · next longer =>
      cases found
      have taken : (line.take config.maxLineLength).length = config.maxLineLength :=
        List.length_take_of_le (Nat.le_of_lt longer)
      obtain ⟨c, rest, beyond⟩ : ∃ c rest, line.drop config.maxLineLength = c :: rest :=
        ⟨_, _, List.drop_eq_getElem_cons longer⟩
      rw [← List.take_append_drop config.maxLineLength line, beyond] at shown
      obtain ⟨character, breaks, there⟩ := readsFrom_shown file small shown
      rw [taken] at character there
      have pointed : PointsAt lint (Snapshot.capture file text) _ :=
        .tooLong linted there character line.length
      simp only [Diagnostic.lint, LintRule.maxLineLength, ← String.append_assoc] at pointed ⊢
      exact pointed
  · cases found

/-- What the rule about `debugger` finds is this keyword. -/
theorem pointsAt_debugger (file : SourcePath) (small : Text.byteLength text.toList < UInt32.size)
    {previous : Option TokenKind} {token : Token}
    (found : token ∈ LintRule.debuggerTokens previous (tokenize text)) :
    PointsAt lint (Snapshot.capture file text)
      (Diagnostic.lint LintRule.noDebugger.name "use of debugger statement"
        (some ((Snapshot.capture file text).positionAt token.start))) := by
  have member : token ∈ tokenize text := (LintRule.debuggerTokens_sublist _ _).subset found
  obtain ⟨_, _, _, _, keyword, _⟩ := LintRule.mem_debuggerTokens.mp found
  obtain ⟨after, _, there⟩ := readsFrom_token file small member
  have lexeme : token.lexeme = "debugger".toList := by
    rw [← keyword, Token.text, String.toList_ofList]
  have inLine : ∀ c ∈ "debugger".toList, decide (c ≠ '\n') = true := by simp
  rw [lexeme, List.takeWhile_append_of_pos inLine] at there
  exact .debugger there

end Lines

/-- What the linter finds points at what it is about. -/
theorem pointsAt_linted {file : SourcePath} {text : String}
    (small : Text.byteLength text.toList < UInt32.size) {config : LintConfig}
    {diagnostic : Diagnostic}
    (found : diagnostic ∈ (Linter.ofConfig config).run (Snapshot.capture file text)) :
    PointsAt (some config) (Snapshot.capture file text) diagnostic := by
  obtain ⟨⟨name, finding⟩, sorted, rfl⟩ := List.mem_map.mp found
  rw [List.mem_mergeSort, Linter.findings, List.mem_flatMap] at sorted
  obtain ⟨rule, enabled, checked⟩ := sorted
  obtain ⟨_, reported, same⟩ := List.mem_map.mp checked
  cases same
  have known : rule ∈ LintRule.builtin := (List.mem_filter.mp enabled).1
  rcases LintRule.mem_builtin.mp known with rfl | rfl | rfl
  · obtain ⟨⟨index, line⟩, shown, trailing⟩ := List.mem_filterMap.mp reported
    exact pointsAt_trailing small shown trailing
  · obtain ⟨token, keyword, rfl⟩ := List.mem_map.mp reported
    exact pointsAt_debugger file small keyword
  · obtain ⟨⟨index, line⟩, shown, long⟩ := List.mem_filterMap.mp reported
    exact pointsAt_tooLong small rfl shown long

/-- A report is about a text, not about how the path of its file is spelled. -/
theorem statelessReport_spelling (lint : Option LintConfig) (spelling file : SourcePath)
    (text : Option String) :
    statelessReport [] (lint.map Linter.ofConfig) spelling text =
      statelessReport [] (lint.map Linter.ofConfig) file text := by
  cases text with
  | none => rfl
  | some text =>
      have entries : syntacticEntries (Snapshot.capture spelling text) =
          syntacticEntries (Snapshot.capture file text) := rfl
      refine statelessReport_congr entries (fun config rule known => ?_) lint
      rcases LintRule.mem_builtin.mp known with rfl | rfl | rfl <;> rfl

/-- Whatever is reported on a text points at what it is about. -/
theorem pointsAt_statelessReport (file : SourcePath) {text : String}
    (small : Text.byteLength text.toList < UInt32.size) (lint : Option LintConfig)
    {diagnostic : Diagnostic}
    (reported : diagnostic ∈ (statelessReport [] (lint.map Linter.ofConfig) file
      (if text.isEmpty then none else some text)).errors) :
    PointsAt lint (Snapshot.capture file text) diagnostic := by
  split at reported
  · cases reported
  rw [statelessReport_some] at reported
  simp only at reported
  split at reported
  · cases lint with
    | none => cases reported
    | some config => exact pointsAt_linted small reported
  · obtain ⟨finding, found, rfl⟩ := List.mem_map.mp reported
    exact pointsAt_blamed file small (Balance.blames_walk found)

/-- Whatever a project that serves a text reports on it points at what it is about. -/
theorem Project.Serves.point_at {store : SourceStore} {file : SourcePath} {code text : String}
    {project : Project Unit} (serves : project.Serves store file code text)
    {lint : Option LintConfig} (linted : project.linter = lint.map Linter.ofConfig)
    (small : Text.byteLength text.toList < UInt32.size) :
    ∃ report, (project.diagnostics store DelimiterEngine.engine file code).value.1 = .ok report ∧
      ∀ diagnostic ∈ report.errors, PointsAt lint (Snapshot.capture file text) diagnostic := by
  obtain ⟨spelling, answered⟩ := serves.diagnostics_value
  refine ⟨_, answered, fun diagnostic reported => ?_⟩
  rw [linted, statelessReport_spelling lint spelling file] at reported
  exact pointsAt_statelessReport file small lint reported

namespace Registry

/-- Whatever is reported on a text points at what it is about: by a project that serves the text,
and after every run by the service, if this is the text which the project has of the file then. With
a broken configuration the text is not looked at. -/
theorem diagnostics_point_at (text : String) (small : text.toUTF8.size < UInt32.size)
    (lint : Option LintConfig) :
    (∀ (store : SourceStore) (file : SourcePath) (code : String) (project : Project Unit),
      project.Serves store file code text → project.linter = lint.map Linter.ofConfig →
        ∃ report,
          (project.diagnostics store DelimiterEngine.engine file code).value.1 = .ok report ∧
            ∀ diagnostic ∈ report.errors,
              PointsAt lint (Snapshot.capture file text) diagnostic) ∧
    ∀ (options : HostOptions) (steps : List RegistryStep) (store : SourceStore)
      (resolve : Resolver) (root file : SourcePath) (code : String) (project : Project Unit),
      let backend : Backend Unit := ⟨store, resolve, DelimiterEngine.engine⟩
      let registry := (run DelimiterEngine.engine options steps).value
      (registry.getOrCreate backend root).value.1 = .ok project →
        project.configurationErrors = [] → project.linter = lint.map Linter.ofConfig →
          project.servedText store file.normalize code =
              (if text.isEmpty then none else some text) →
            ∃ report, (registry.diagnostics backend root file code).value.1 = .ok report ∧
              ∀ diagnostic ∈ report.errors,
                PointsAt lint (Snapshot.capture file.normalize text) diagnostic := by
  rw [Text.size_toUTF8] at small
  refine ⟨fun store file code project serves linted => serves.point_at linted small, ?_⟩
  intro options steps store resolve root file code project backend registry obtained usable linted
    served
  have serves := Project.serves_of_isSound usable (isSound_of_obtained obtained) served
  obtain ⟨report, reported, points⟩ := serves.point_at linted small
  exact ⟨report, by rw [diagnostics_of_obtained obtained, reported]; rfl, points⟩

/-- A bracket behind a character of two bytes, and two findings on a second line: posed to a new
project, and pushed to a project that has another text of the file. -/
theorem diagnostics_point_at_two_lines :
    let store := Tree.empty.store
    let resolve := (Backend.overStore store DelimiterEngine.engine).resolve
    let fresh : Project Unit :=
      ⟨Host.create ⟨"/p"⟩ CompilationSettings.empty HostOptions.standard, (),
        some (Linter.ofConfig ⟨[], 80⟩), []⟩
    let steps : List RegistryStep := [⟨store, resolve, .completions ⟨"/p"⟩ ⟨"/p/a.ts"⟩ "é" 0⟩]
    let registry := (run DelimiterEngine.engine .standard steps).value
    let text := "é ]\r\n('x"
    let report : Report := ⟨[
      ⟨.syntactic, "TS1128: Declaration or statement expected.", some ⟨0, 2⟩⟩,
      ⟨.syntactic, "TS1002: Unterminated string literal.", some ⟨1, 1⟩⟩,
      ⟨.syntactic, "TS1005: ')' expected.", some ⟨1, 3⟩⟩]⟩
    (fresh.diagnostics store DelimiterEngine.engine ⟨"/p/a.ts"⟩ text).value.1 = .ok report ∧
      (registry.diagnostics ⟨store, resolve, DelimiterEngine.engine⟩ ⟨"/p"⟩ ⟨"/p/./a.ts"⟩
        text).value.1 = .ok report ∧
      (∀ diagnostic ∈ report.errors,
        PointsAt (some ⟨[], 80⟩) (Snapshot.capture ⟨"/p/a.ts"⟩ text) diagnostic) ∧
      ∀ diagnostic ∈ report.errors,
        PointsAt none (Snapshot.capture ⟨"/p/a.ts"⟩ text) diagnostic := by
  intro store resolve fresh steps registry text report
  have small : text.toUTF8.size < UInt32.size := by decide +kernel
  have first : (fresh.diagnostics store DelimiterEngine.engine ⟨"/p/a.ts"⟩ text).value.1 =
      .ok report := by decide +kernel
  have second : (registry.diagnostics ⟨store, resolve, DelimiterEngine.engine⟩ ⟨"/p"⟩
      ⟨"/p/./a.ts"⟩ text).value.1 = .ok report := by decide +kernel
  have poses : fresh.Poses store ⟨"/p/a.ts"⟩ text text :=
    Project.poses_push rfl (by decide) rfl
  obtain ⟨given, answered, points⟩ := (diagnostics_point_at text small (some ⟨[], 80⟩)).1 store
    ⟨"/p/a.ts"⟩ text fresh poses.serves rfl
  rw [first] at answered
  cases answered
  refine ⟨first, second, points, ?_⟩
  have held : (registry.projects.find? (SourcePath.mk "/p").normalize).map (fun project =>
      (project.configurationErrors, project.linter.isNone,
        project.servedText store (SourcePath.mk "/p/./a.ts").normalize text)) =
      some ([], true, some text) := by decide +kernel
  obtain ⟨project, found, known⟩ := Option.map_eq_some_iff.mp held
  obtain ⟨usable, unlinted, served⟩ : project.configurationErrors = [] ∧
      project.linter.isNone = true ∧ _ = some text := by simpa using known
  obtain ⟨given, answered, pointing⟩ := (diagnostics_point_at text small none).2 .standard steps
    store resolve ⟨"/p"⟩ ⟨"/p/./a.ts"⟩ text project (obtained_of_found _ found) usable
    (by simpa using unlinted) served
  rw [second] at answered
  cases answered
  exact pointing

end Registry

end ScriptAnalysis
