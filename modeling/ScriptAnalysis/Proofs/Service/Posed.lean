import ScriptAnalysis.Proofs.Service.Delimiter
import ScriptAnalysis.Proofs.Service.Wholeness

/-!
# The text that a request is about

After a push the project has a text of the file: the pushed one, or the one that the store holds, or
an older one of the same version (`Project.servedText`). A diagnostics request is answered with the
stateless report on this text (`Project.Serves.diagnostics_value`), and after every run each
usable project serves the text that it has (`Project.serves_of_isSound`). A request poses the
pushed or stored text itself if no snapshot of another text is cached under its version
(`Project.Poses`).
-/

namespace ScriptAnalysis

namespace Project

variable {store : SourceStore} {file : SourcePath} {code text : String} {project : Project Unit}

/-- The text of a file after a text was pushed: the effective one, or an older one of the same
version. -/
def servedText (store : SourceStore) (file : SourcePath) (code : String)
    (project : Project Unit) : Option String :=
  (Content.refreshed (store.effective file code) (project.content? file)).map Content.text

/-- The served text is that of the snapshot in the cache. -/
theorem servedText_eq_cached (store : SourceStore) (file : SourcePath) (code : String)
    (project : Project Unit) :
    project.servedText store file code =
      ((project.withContent store file code).cached? file).map Snapshot.text := by
  have content : ((project.withContent store file code).cached? file).map Snapshot.content =
      Content.refreshed (store.effective file code) (project.content? file) :=
    (project.content?_withContent store file code file).trans (if_pos rfl)
  rw [servedText, ← content, Option.map_map]
  rfl

/-- Whole snapshots are captures, so the text that is served is captured under some spelling of the
file. -/
theorem exists_cached?_eq_capture (sound : project.host.cache.snapshots.IsSound)
    (store : SourceStore) (file : SourcePath) (code : String) :
    ∃ spelling, (project.withContent store file code).cached? file =
      (project.servedText store file code).map (Snapshot.capture spelling) := by
  have kept : (project.withContent store file code).host.cache.snapshots.IsSound :=
    SnapshotCache.survives_isSound.setContent sound store file code
  rw [servedText_eq_cached]
  cases cached : (project.withContent store file code).cached? file with
  | none => exact ⟨file, rfl⟩
  | some snapshot =>
      obtain ⟨key, there, -⟩ := PathMap.mem_of_find? cached
      exact ⟨snapshot.path, congrArg some (kept.whole (key, snapshot) there).eq_capture⟩

/-- A request with the pushed `code` is answered from a text: nothing is wrong with the
configuration, and the project has a capture of the text after the push. An empty text counts as no
content. -/
structure Serves (store : SourceStore) (file : SourcePath) (code text : String)
    (project : Project Unit) : Prop where
  configured : project.configurationErrors = []
  captured : ∃ spelling, (project.withContent store file code).cached? file =
    (if text.isEmpty then none else some text).map (Snapshot.capture spelling)

/-- A project whose snapshots are whole serves the text that it has. -/
theorem serves_of_isSound (configured : project.configurationErrors = [])
    (sound : project.host.cache.snapshots.IsSound)
    (served : project.servedText store file code = if text.isEmpty then none else some text) :
    project.Serves store file code text :=
  ⟨configured, served ▸ exists_cached?_eq_capture sound store file code⟩

/-- The answer is the report on the text, under some spelling of the file. -/
theorem Serves.diagnostics_value (serves : project.Serves store file code text) :
    ∃ spelling, (project.diagnostics store DelimiterEngine.engine file code).value.1 =
      .ok (statelessReport [] project.linter spelling
        (if text.isEmpty then none else some text)) := by
  obtain ⟨spelling, captured⟩ := serves.captured
  exact ⟨spelling, by rw [diagnostics_report captured, serves.configured]⟩

/-- A request with the pushed `code` is about a text, and nothing stands in the way of an analysis:
neither the configuration nor a snapshot of another text with the same version. An empty text counts
as no content. -/
structure Poses (store : SourceStore) (file : SourcePath) (code text : String)
    (project : Project Unit) : Prop where
  configured : project.configurationErrors = []
  effective : store.effective file code = if text.isEmpty then none else some text
  distinct : ∀ held, project.cached? file = some held →
    held.version = ContentHash.ofText text → held = Snapshot.capture file text

/-- A text is posed by pushing it to a project that does not track the file. -/
theorem poses_push (configured : project.configurationErrors = [])
    (nonempty : text.isEmpty = false) (untracked : project.cached? file = none) :
    project.Poses store file text text where
  configured := configured
  effective := by rw [SourceStore.effective, nonempty]; rfl
  distinct held found := by rw [untracked] at found; cases found

namespace Poses

/-- The posed text is captured under the path of the file. -/
theorem cached?_withContent (poses : project.Poses store file code text) :
    (project.withContent store file code).cached? file =
      (if text.isEmpty then none else some text).map (Snapshot.capture file) := by
  rw [← poses.effective]
  refine SnapshotCache.cached?_setContent_of_distinct fun found effective => ?_
  rw [poses.effective] at effective
  split at effective
  · cases effective
  · cases effective
    exact poses.distinct

/-- The text that is posed is served. -/
theorem serves (poses : project.Poses store file code text) :
    project.Serves store file code text :=
  ⟨poses.configured, file, poses.cached?_withContent⟩

/-- The answer is the report on the text. -/
theorem diagnostics_value (poses : project.Poses store file code text) :
    (project.diagnostics store DelimiterEngine.engine file code).value.1 =
      .ok (statelessReport [] project.linter file
        (if text.isEmpty then none else some text)) := by
  rw [diagnostics_report poses.cached?_withContent, poses.configured]

end Poses

end Project

/-- What is found in a captured text: what is out of balance, else what the linter finds. -/
theorem statelessReport_some (linter : Option Linter) (file : SourcePath) (text : String) :
    statelessReport [] linter file (some text) =
      let snapshot := Snapshot.capture file text
      if (syntacticEntries snapshot).isEmpty then
        ⟨(linter.map fun linter => linter.run snapshot).getD []⟩
      else ⟨syntacticEntries snapshot⟩ := by
  cases linter <;> rfl

/-- A linter with a configuration tells two snapshots apart only by what the built-in rules find. -/
theorem Linter.run_congr {config : LintConfig} {left right : Snapshot}
    (alike : ∀ rule ∈ LintRule.builtin, rule.check config left = rule.check config right) :
    (Linter.ofConfig config).run left = (Linter.ofConfig config).run right := by
  have found : (Linter.ofConfig config).findings left = (Linter.ofConfig config).findings right := by
    refine List.flatMap_congr fun rule enabled => ?_
    have known : rule ∈ LintRule.builtin := (List.mem_filter.mp enabled).1
    exact congrArg (List.map _) (alike rule known)
  rw [run, run, found]

/-- Two texts have the same report if the same is out of balance and the built-in rules find the
same. -/
theorem statelessReport_congr {file other : SourcePath} {text otherText : String}
    (entries : syntacticEntries (Snapshot.capture file text) =
      syntacticEntries (Snapshot.capture other otherText))
    (checks : ∀ config, ∀ rule ∈ LintRule.builtin,
      rule.check config (Snapshot.capture file text) =
        rule.check config (Snapshot.capture other otherText)) (lint : Option LintConfig) :
    statelessReport [] (lint.map Linter.ofConfig) file (some text) =
      statelessReport [] (lint.map Linter.ofConfig) other (some otherText) := by
  rw [statelessReport_some, statelessReport_some]
  cases lint with
  | none => simp only [entries, Option.map_none]
  | some config => simp only [entries, Option.map_some, Linter.run_congr (checks config)]

end ScriptAnalysis
