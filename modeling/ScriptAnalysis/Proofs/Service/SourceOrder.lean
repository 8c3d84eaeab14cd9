import ScriptAnalysis.Proofs.Balance.Blame
import ScriptAnalysis.Proofs.Balance.Order
import ScriptAnalysis.Proofs.Lint.Findings
import ScriptAnalysis.Proofs.Service.Completion

/-!
# Findings in the order of the source

The findings of the delimiter engine begin where those of the balance check stand, so they keep the
order of the script (`DelimiterEngine.findings_ascend`). Each begins between two characters, and
there later places have later positions. So the syntactic diagnostics that a request reports are in
the order of their positions (`Registry.diagnostics_in_source_order`).
-/

namespace ScriptAnalysis

/-- Findings in the order of a file of the given size. -/
structure EngineDiagnostic.Ascend (file : SourcePath) (size : Nat)
    (found : List EngineDiagnostic) : Prop where
  /-- Every finding begins in the file, and none before an earlier one. -/
  starts : ∃ starts : List Nat,
    found.map location = (starts.map fun start => some ⟨file, start⟩) ∧
      starts.Pairwise (· ≤ ·) ∧ ∀ start ∈ starts, start ≤ size
  /-- Only missing brackets share their place with an earlier finding, which is another one or a
  comment without an end. -/
  shared : found.Pairwise fun left right =>
    left.location = right.location → right.code = 1005 ∧ (left.code = 1005 ∨ left.code = 1010)

/-- The diagnostics of a report that are about the syntax. -/
def Report.syntactic (report : Report) : List Diagnostic :=
  report.errors.filter fun diagnostic => diagnostic.kind == .syntactic

namespace Balance

/-- Every finding stands between two characters. -/
theorem offset_mem_boundaries {source : String} {finding : Finding}
    (member : finding ∈ check source) : finding.offset ∈ Text.boundaries source.toList := by
  have ends : Text.byteLength source.toList ∈ Text.boundaries source.toList :=
    ⟨source.toList, [], (List.append_nil _).symm, rfl⟩
  cases blames_walk member with
  | stray there closes => exact LintRule.start_mem_boundaries there
  | unclosed there closes expected => exact LintRule.start_mem_boundaries there
  | openString there opens => exact LintRule.start_mem_boundaries there
  | openTemplate there opens => exact LintRule.start_mem_boundaries there
  | unclosedAtEnd expected => exact ends
  | openComment => exact ends

end Balance

namespace DelimiterEngine

/-- The engine's findings are in the order of their file. -/
theorem findings_ascend (file : SourcePath) (source : String) :
    EngineDiagnostic.Ascend file (Text.byteLength source.toList) (findings file source) := by
  obtain ⟨order, bounds⟩ := Balance.pairwise_check source
  refine ⟨⟨(Balance.check source).map Balance.Finding.offset, ?_, ?_, ?_⟩, ?_⟩
  · rw [findings, List.map_map, List.map_map]
    rfl
  · exact List.pairwise_map.mpr (order.imp Balance.Finding.InOrder.offset_le)
  · exact List.forall_mem_map.mpr bounds
  · refine List.pairwise_map.mpr (order.imp fun {left right} inOrder same => ?_)
    obtain ⟨⟨bracket, unclosed⟩, earlier⟩ :=
      inOrder.shared (congrArg DiagnosticLocation.start (Option.some.inj same))
    refine ⟨by rw [unclosed]; rfl, ?_⟩
    rcases earlier with comment | ⟨other, unclosed⟩
    · exact .inr (by rw [comment]; rfl)
    · exact .inl (by rw [unclosed]; rfl)

end DelimiterEngine

/-- The syntactic diagnostics of a text have positions in ascending order. -/
theorem positions_syntacticEntries (file : SourcePath) {source : String}
    (small : Text.byteLength source.toList < UInt32.size) :
    ∃ positions : List Position,
      (syntacticEntries (Snapshot.capture file source)).map Diagnostic.position =
        positions.map some ∧ positions.Pairwise (· ≤ ·) := by
  refine ⟨(Balance.check source).map fun finding =>
    (Snapshot.capture file source).positionAt finding.offset, ?_, ?_⟩
  · rw [syntacticEntries, List.map_map, List.map_map]
    rfl
  · have increasing := Snapshot.strictMonoOn_positionAt file small
    refine List.pairwise_map.mpr ?_
    refine (Balance.pairwise_check source).1.imp_of_mem fun left right inOrder => ?_
    exact increasing.monotoneOn (Balance.offset_mem_boundaries left)
      (Balance.offset_mem_boundaries right) inOrder.offset_le

/-- Diagnostics of the balance check are syntactic. -/
theorem kind_of_mem_syntacticEntries {snapshot : Snapshot} {diagnostic : Diagnostic}
    (member : diagnostic ∈ syntacticEntries snapshot) : diagnostic.kind = .syntactic := by
  obtain ⟨finding, -, rfl⟩ := List.mem_map.mp member
  rfl

/-- Those of the linter are not. -/
theorem Linter.kind_of_mem_run {linter : Linter} {snapshot : Snapshot} {diagnostic : Diagnostic}
    (member : diagnostic ∈ linter.run snapshot) : diagnostic.kind = .lint := by
  obtain ⟨finding, -, rfl⟩ := List.mem_map.mp member
  rfl

/-- The linter, which runs if nothing is out of balance, finds nothing that is syntactic. -/
theorem Report.syntactic_ite (linter : Option Linter) (snapshot : Snapshot) :
    (if (syntacticEntries snapshot).isEmpty then
        ⟨(linter.map fun linter => linter.run snapshot).getD []⟩
      else ⟨syntacticEntries snapshot⟩ : Report).syntactic = syntacticEntries snapshot := by
  split
  · next balanced =>
      rw [List.isEmpty_iff.mp balanced]
      cases linter with
      | none => rfl
      | some linter =>
          refine List.filter_eq_nil_iff.mpr fun diagnostic member => ?_
          rw [Linter.kind_of_mem_run member]
          decide
  · refine List.filter_eq_self.mpr fun diagnostic member => ?_
    rw [kind_of_mem_syntacticEntries member]
    rfl

/-- A request reports the syntactic diagnostics of the text that its file has then. -/
theorem Project.syntactic_diagnostics {store : SourceStore} {file : SourcePath}
    {code source : String} {project : Project Unit} (usable : project.configurationErrors = [])
    (sound : project.host.cache.snapshots.IsSound)
    (served : project.servedText store file code = some source) :
    ∃ report, (project.diagnostics store DelimiterEngine.engine file code).value.1 = .ok report ∧
      report.syntactic = syntacticEntries (Snapshot.capture file source) := by
  obtain ⟨spelling, captured⟩ := exists_cached?_eq_capture sound store file code
  rw [served] at captured
  rw [diagnostics_value, usable]
  refine ⟨_, rfl, ?_⟩
  simp only [entries, captured, Option.map_some, Option.getD_some]
  exact Report.syntactic_ite project.linter (Snapshot.capture spelling source)

namespace Registry

/-- The findings in a text are in its order, all within it, and only missing brackets share their
place with an earlier finding. So after every run the syntactic diagnostics of a request, if it is
answered from this text, all have positions and are in the order of those. With a broken
configuration the text is not looked at. -/
theorem diagnostics_in_source_order (source : String) (small : source.toUTF8.size < UInt32.size) :
    (∀ file, EngineDiagnostic.Ascend file source.toUTF8.size
      (DelimiterEngine.findings file source)) ∧
    ∀ (options : HostOptions) (steps : List RegistryStep) (store : SourceStore)
      (resolve : Resolver) (root file : SourcePath) (code : String) (project : Project Unit),
      let backend : Backend Unit := ⟨store, resolve, DelimiterEngine.engine⟩
      let registry := (run DelimiterEngine.engine options steps).value
      let answer := (registry.diagnostics backend root file code).value.1
      (registry.getOrCreate backend root).value.1 = .ok project →
        project.servedText store file.normalize code = some source →
          (project.configurationErrors ≠ [] → answer = .ok ⟨project.configurationErrors⟩) ∧
          (project.configurationErrors = [] → ∃ report, answer = .ok report ∧
            report.syntactic = syntacticEntries (Snapshot.capture file.normalize source) ∧
            ∃ positions : List Position,
              report.syntactic.map Diagnostic.position = positions.map some ∧
                positions.Pairwise (· ≤ ·)) := by
  rw [Text.size_toUTF8] at small ⊢
  refine ⟨fun file => DelimiterEngine.findings_ascend file source, ?_⟩
  intro options steps store resolve root file code project backend registry answer obtained served
  have answered : answer = (project.diagnostics store DelimiterEngine.engine file.normalize
      code).value.1.mapError ServiceError.engine := diagnostics_of_obtained obtained file code
  constructor
  · intro broken
    rw [answered, Project.diagnostics_value, if_neg (by simpa using broken)]
    rfl
  · intro usable
    obtain ⟨report, reported, syntactic⟩ :=
      Project.syntactic_diagnostics usable (isSound_of_obtained obtained) served
    refine ⟨report, by rw [answered, reported]; rfl, syntactic, ?_⟩
    rw [syntactic]
    exact positions_syntacticEntries file.normalize small

/-- Four findings at the end of a text, the first of them about a comment, and one before them. -/
theorem diagnostics_in_source_order_open_comment :
    let store := Tree.empty.store
    let resolve := (Backend.overStore store DelimiterEngine.engine).resolve
    let steps : List RegistryStep := [⟨store, resolve, .completions ⟨"/p"⟩ ⟨"/p/a.ts"⟩ "é" 0⟩]
    let registry := (run DelimiterEngine.engine .standard steps).value
    let source := "é]\n([\x7b /*"
    source.toUTF8.size < UInt32.size ∧
      (DelimiterEngine.findings ⟨"/p/a.ts"⟩ source).map EngineDiagnostic.code =
        [1128, 1010, 1005, 1005, 1005] ∧
      ∃ (report : Report) (positions : List Position),
        (registry.diagnostics ⟨store, resolve, DelimiterEngine.engine⟩ ⟨"/p"⟩ ⟨"/p/./a.ts"⟩
            source).value.1 = .ok report ∧
          report.syntactic.map Diagnostic.position = positions.map some ∧
            positions.Pairwise (· ≤ ·) := by
  intro store resolve steps registry source
  have small : source.toUTF8.size < UInt32.size := by decide +kernel
  have held : (registry.projects.find? (SourcePath.mk "/p").normalize).map (fun project =>
      (project.configurationErrors,
        project.servedText store (SourcePath.mk "/p/./a.ts").normalize source)) =
      some ([], some source) := by decide +kernel
  obtain ⟨project, found, known⟩ := Option.map_eq_some_iff.mp held
  obtain ⟨usable, served⟩ := Prod.mk.inj known
  have obtained := obtained_of_found ⟨store, resolve, DelimiterEngine.engine⟩ found
  obtain ⟨report, answered, -, positions, placed, ordered⟩ :=
    ((diagnostics_in_source_order source small).2 .standard steps store resolve ⟨"/p"⟩
      ⟨"/p/./a.ts"⟩ source project obtained served).2 usable
  exact ⟨small, by decide +kernel, report, positions, answered, placed, ordered⟩

end Registry

end ScriptAnalysis
