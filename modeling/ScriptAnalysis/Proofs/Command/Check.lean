import Mathlib.Data.List.Forall2
import ScriptAnalysis.Command.Run
import ScriptAnalysis.Proofs.Service.Mirror

/-!
# Files checked together

A run of the check command diagnoses its files one after the other in one project, over a store
that stands still. Its registry mirrors the store at any time, so each file gets the report that it
gets alone (`Check.diagnoseAll_value`) and is quoted as it is quoted alone
(`Check.printed_writeText`). What is printed and the exit code are made of these reports
(`Invocation.check_files`).
-/

namespace ScriptAnalysis

/-- Whether it is a text that is printed. -/
def Emission.isPrinted : Emission → Bool
  | .event _ => false
  | .output _ => true
  | .complaint _ => true

/-- All texts that are printed, on either of the two streams. -/
def Transcript.printed (transcript : Transcript) : List Emission :=
  transcript.emissions.filter Emission.isPrinted

theorem Traced.printed_emissions {α : Type} (computation : Traced α) :
    computation.emissions.filter Emission.isPrinted = [] := by
  rw [Traced.emissions, List.filter_eq_nil_iff]
  intro emission member
  obtain ⟨event, _, rfl⟩ := List.mem_map.mp member
  exact Bool.false_ne_true

namespace Check

/-- The reports that a run makes. -/
def reports {σ : Type} (backend : Backend σ) (options : HostOptions)
    (workingDirectory root : SourcePath) (files : List SourcePath) :
    Except ServiceError (List FileReport) :=
  (diagnoseAll backend (workingDirectory.combine root) (files.map workingDirectory.combine)
    (Registry.empty options)).value.1

variable {store : SourceStore} {root : SourcePath} {registry : Registry Unit}

/-- What a run says of a file: it depends on the store only. -/
def entryOf (store : SourceStore) (root file : SourcePath) : FileReport :=
  ⟨file, store.reportOn root.normalize file.normalize⟩

/-- Each file gets its own report, and then the registry still mirrors the store. -/
theorem diagnoseAll_value (mirrors : registry.Mirrors store) (root : SourcePath)
    (files : List SourcePath) :
    ∃ next, (diagnoseAll (Invocation.backend store) root files registry).value =
        (.ok (files.map (entryOf store root)), next) ∧
      next.Mirrors store ∧
      ((registry.find? root).isSome ∨ files ≠ [] → (next.find? root).isSome) := by
  induction files generalizing registry with
  | nil => exact ⟨registry, rfl, mirrors, fun served => served.resolve_right (by simp)⟩
  | cons file rest inductionHypothesis =>
      obtain ⟨between, answered, mirrors, served⟩ := mirrors.diagnostics root file
      obtain ⟨next, others, mirrors, serves⟩ := inductionHypothesis mirrors
      refine ⟨next, ?_, mirrors, fun _ => serves (.inl served)⟩
      rw [diagnoseAll, Traced.value_bind, Invocation.backend, answered]
      simp only [Traced.value_bind]
      rw [← Invocation.backend, others]
      rfl

/-- The findings of a file with the lines that the store holds. -/
def shownFrom (store : SourceStore) (entry : FileReport) : Emission :=
  .complaint (shown entry ((store.held entry.file).map (Snapshot.capture entry.file)))

/-- Every file is quoted as the store holds it. -/
theorem printed_writeText (mirrors : registry.Mirrors store) {entries : List FileReport}
    (plain : ∀ entry ∈ entries, entry.file.IsPlain)
    (served : entries ≠ [] → (registry.find? root).isSome) :
    (writeText (Invocation.backend store) root entries registry).filter Emission.isPrinted =
      entries.map (shownFrom store) := by
  induction entries generalizing registry with
  | nil => rfl
  | cons entry rest inductionHypothesis =>
      obtain ⟨project, found⟩ := Option.isSome_iff_exists.mp (served (List.cons_ne_nil _ _))
      obtain ⟨read, kept⟩ := mirrors.snapshot (plain entry List.mem_cons_self) found
      have looked : (content (Invocation.backend store) root entry.file registry).value =
          ((project.onHost (Host.snapshot store entry.file)).value.1,
            registry.insert root.normalize
              (project.onHost (Host.snapshot store entry.file)).value.2) := by
        rw [content, found]
        rfl
      have others := inductionHypothesis kept
        (fun other member => plain other (List.mem_cons_of_mem _ member)) fun _ => by
          rw [Registry.find?, Registry.insert, PathMap.find?_insert, if_pos rfl]
          rfl
      rw [writeText]
      simp only [looked]
      rw [List.filter_append, Traced.printed_emissions, List.nil_append,
        List.filter_cons_of_pos rfl, others, read]
      rfl

/-- Everything that is printed about files. -/
def printedFor (store : SourceStore) (format : ReportFormat) (quiet : Bool)
    (entries : List FileReport) : List Emission :=
  match format with
  | .json => writeJson entries
  | .text => entries.map (shownFrom store) ++ if quiet then [] else [.complaint (summary entries)]

/-- A run is made of the reports of its files. -/
theorem run_value (store : SourceStore) (options : HostOptions) (workingDirectory : SourcePath)
    (quiet : Bool) (root : SourcePath) (files : List SourcePath) (format : ReportFormat) :
    let entries := files.map fun file =>
      entryOf store (workingDirectory.combine root) (workingDirectory.combine file)
    let ran := run (Invocation.backend store) options workingDirectory quiet root files format
    reports (Invocation.backend store) options workingDirectory root files = .ok entries ∧
      ran.printed = printedFor store format quiet entries ∧ ran.exitCode = exitCode entries := by
  intro entries ran
  obtain ⟨registry, diagnosed, mirrors, serves⟩ :=
    diagnoseAll_value (Registry.Mirrors.empty store options) (workingDirectory.combine root)
      (files.map workingDirectory.combine)
  rw [List.map_map] at diagnosed
  have made : ran = ⟨(diagnoseAll (Invocation.backend store) (workingDirectory.combine root)
      (files.map workingDirectory.combine) (Registry.empty options)).emissions ++
        write (Invocation.backend store) (workingDirectory.combine root) format quiet entries
          registry, exitCode entries⟩ := by
    simp only [ran, run]
    split
    · next failed => rw [diagnosed] at failed; cases failed
    · next answered => rw [diagnosed] at answered; cases answered; rfl
  refine ⟨by rw [reports, diagnosed]; rfl, ?_, by rw [made]⟩
  rw [made, Transcript.printed, List.filter_append, Traced.printed_emissions, List.nil_append]
  cases format with
  | json => rfl
  | text =>
      have plain : ∀ entry ∈ entries, entry.file.IsPlain := by
        intro entry member
        obtain ⟨file, _, rfl⟩ := List.mem_map.mp member
        exact SourcePath.isPlain_combine workingDirectory file
      have shown := printed_writeText mirrors plain fun some => serves (.inr ?_)
      · rw [write, List.filter_append, shown, printedFor]
        cases quiet <;> rfl
      · exact fun none => some (by rw [List.map_eq_nil_iff] at none ⊢; exact none)

/-- A run fails exactly if something was found that is not the linter's. -/
theorem exitCode_eq (entries : List FileReport) :
    exitCode entries =
      if ∃ entry ∈ entries, ∃ diagnostic ∈ entry.report.errors, diagnostic.kind ≠ .lint then 1
      else 0 := by
  have counted : errorCount entries = 0 ↔
      ¬ ∃ entry ∈ entries, ∃ diagnostic ∈ entry.report.errors, diagnostic.kind ≠ .lint := by
    rw [errorCount, List.countP_eq_zero]
    simp only [findings, List.mem_flatMap, DiagnosticKind.isCompiler, bne_iff_ne]
    constructor
    · rintro none ⟨entry, member, diagnostic, found, other⟩
      exact none diagnostic ⟨entry, member, found⟩ other
    · rintro none diagnostic ⟨entry, member, found⟩ other
      exact none ⟨entry, member, diagnostic, found, other⟩
  rw [exitCode, ite_cond_congr (propext counted), ite_not]

/-- The exit code knows neither order nor repetition. -/
theorem exitCode_congr {entries others : List FileReport}
    (same : ∀ entry, entry ∈ entries ↔ entry ∈ others) : exitCode entries = exitCode others := by
  rw [exitCode_eq, exitCode_eq]
  simp only [same]

end Check

/-- Checking files together gives each of them the report that it gets alone, in the order of the
files, and prints just these reports: as one JSON document, or as texts that quote the lines which
the store holds, with a summary behind them. So the texts are those that are printed for each file
alone. The exit code tells whether any of the reports has an
entry that is not the linter's, so it is the same for the same files in another order. -/
theorem Invocation.check_files (surroundings : Surroundings) (invocation : Invocation)
    (root : SourcePath) (files : List SourcePath) :
    let check quiet files format :=
      ({ invocation with quiet := quiet, task := .check root files format } : Invocation).run
        surroundings
    let reports files := Check.reports (backend surroundings.store)
      (invocation.hostOptions surroundings.toolchainDirectory) surroundings.workingDirectory root
      files
    ∃ entries, reports files = .ok entries ∧
      List.Forall₂ (fun file entry => reports [file] = .ok [entry]) files entries ∧
      (∀ quiet format, (check quiet files format).printed =
        Check.printedFor surroundings.store format quiet entries) ∧
      (∀ quiet, (check quiet files .text).printed =
        files.flatMap (fun file => (check true [file] .text).printed) ++
          if quiet then [] else [.complaint (Check.summary entries)]) ∧
      (∀ quiet format, (check quiet files format).exitCode =
        if ∃ entry ∈ entries, ∃ diagnostic ∈ entry.report.errors, diagnostic.kind ≠ .lint then 1
        else 0) ∧
      ∀ others, (∀ file, file ∈ others ↔ file ∈ files) → ∀ quiet format,
        (check quiet others format).exitCode = (check quiet files format).exitCode := by
  intro check reports
  let entry file := Check.entryOf surroundings.store (surroundings.workingDirectory.combine root)
    (surroundings.workingDirectory.combine file)
  have ran quiet files format : reports files = .ok (files.map entry) ∧
      (check quiet files format).printed =
        Check.printedFor surroundings.store format quiet (files.map entry) ∧
      (check quiet files format).exitCode = Check.exitCode (files.map entry) :=
    Check.run_value surroundings.store (invocation.hostOptions surroundings.toolchainDirectory)
      surroundings.workingDirectory quiet root files format
  refine ⟨files.map entry, (ran true files .json).1, ?_,
    fun quiet format => (ran quiet files format).2.1, fun quiet => ?_, fun quiet format => ?_,
    fun others same quiet format => ?_⟩
  · exact List.forall₂_map_right_iff.mpr
      (List.forall₂_same.mpr fun file _ => (ran true [file] .json).1)
  · have alone file : (check true [file] .text).printed =
        [Check.shownFrom surroundings.store (entry file)] := (ran true [file] .text).2.1
    rw [(ran quiet files .text).2.1, Check.printedFor, List.map_map, List.map_eq_flatMap]
    simp only [alone, Function.comp_apply]
  · rw [(ran quiet files format).2.2, Check.exitCode_eq]
  · rw [(ran quiet others format).2.2, (ran quiet files format).2.2]
    exact Check.exitCode_congr fun made => by simp only [List.mem_map, same]

end ScriptAnalysis
