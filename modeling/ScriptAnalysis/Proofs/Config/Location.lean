import ScriptAnalysis.Proofs.Config.Partition
import ScriptAnalysis.Proofs.Path.Route
import ScriptAnalysis.Proofs.Store.Tree

/-!
# Where listed files are looked for

A file that a configuration lists is looked for at its path combined with the project directory.
Combining one path after the other leads where the joined paths lead (`combine_combine`), so it does
not matter whether the directory is normalised first: the same files are looked for and found
(`combine_combine_resolves`).
-/

namespace ScriptAnalysis

namespace SourcePath

/-- To combine one path after the other is to combine the joined paths. -/
theorem combine_combine (first second third : SourcePath) :
    (first.combine second).combine third = first.combine (second.join third) := by
  refine (isPlain_combine _ _).eq_of_components (isPlain_combine _ _) ?_
  cases absolute : third.isAbsolute with
  | true =>
      have replaced : second.join third = third := by rw [join, if_pos absolute]
      rw [replaced, combine_of_absolute _ absolute, combine_of_absolute _ absolute]
  | false =>
      have joined := isAbsolute_join second absolute
      rw [components_combine_relative _ absolute, normalize_of_combine]
      cases rooted : second.isAbsolute with
      | true =>
          rw [rooted] at joined
          rw [combine_of_absolute first rooted, combine_of_absolute first joined]
          exact (components_combine_relative second absolute).symm
      | false =>
          rw [rooted] at joined
          rw [components_combine_relative first rooted, components_combine_relative first joined,
            steps_join second absolute, List.foldl_append]

/-- It does not matter in what spelling the base is combined. -/
theorem normalize_combine (base path : SourcePath) :
    base.normalize.combine path = base.combine path := by
  refine (isPlain_combine _ _).eq_of_components (isPlain_combine _ _) ?_
  cases absolute : path.isAbsolute with
  | true => rw [combine_of_absolute _ absolute, combine_of_absolute _ absolute]
  | false =>
      rw [components_combine_relative _ absolute, components_combine_relative _ absolute,
        normalize_normalize]

end SourcePath

variable {store : SourceStore} {root : SourcePath}

theorem ProjectConfig.listed_normalize (config : ProjectConfig) (root : SourcePath) :
    config.listed root.normalize = config.listed root :=
  List.map_congr_left fun file _ => root.normalize_combine ⟨file⟩

/-- The same files are looked for if the configuration is the same. -/
theorem SourceStore.listed_normalize
    (same : store.text? (configFile root.normalize) = store.text? (configFile root)) :
    store.listed root.normalize = store.listed root := by
  rw [listed, listed, config, config, same]
  cases ProjectConfig.ofText? (store.text? (configFile root)) with
  | error error => rfl
  | ok config => exact config.listed_normalize root

/-- The root files are those of the listed ones that the store has. -/
theorem rootFiles_resolveProject (store : SourceStore) (root : SourcePath) :
    (resolveProject store root).value.rootFiles = (store.listed root).filter store.has := by
  rw [resolveProject_value, SourceStore.listed]
  cases store.config root <;> rfl

/-- Combining paths is associative: to combine a path and then another one is to combine the path
that joins them, whether the paths are absolute or not. So the base may be normalised first, and a
project that is resolved from its normalised directory, with the same configuration, looks for the
same files and finds the same root files. -/
theorem combine_combine_resolves :
    (∀ first second third : SourcePath,
      (first.combine second).combine third = first.combine (second.join third)) ∧
    (∀ base path : SourcePath, base.normalize.combine path = base.combine path) ∧
    ∀ (store : SourceStore) (root : SourcePath),
      store.text? (configFile root.normalize) = store.text? (configFile root) →
        let resolution := resolveProject store root
        let normal := resolveProject store root.normalize
        (Event.readFiles normal.events).tail = (Event.readFiles resolution.events).tail ∧
          normal.value.rootFiles = resolution.value.rootFiles := by
  refine ⟨SourcePath.combine_combine, SourcePath.normalize_combine, ?_⟩
  intro store root same resolution normal
  have listed := SourceStore.listed_normalize same
  constructor
  · rw [readFiles_resolveProject, readFiles_resolveProject, List.tail_cons, List.tail_cons, listed]
  · rw [rootFiles_resolveProject, rootFiles_resolveProject, listed]

/-- A project directory that is spelled with a `.`, and a listed file beside the directory. -/
theorem combine_combine_resolves_sibling :
    let store := (Tree.built [.writeFile ⟨"/p/quill.toml"⟩ "files = ['../lib/a.ts', 'b.ts']",
      .writeFile ⟨"/lib/a.ts"⟩ ""]).store
    let root := SourcePath.mk "/p/./"
    root.normalize = ⟨"/p"⟩ ∧
      store.text? (configFile root.normalize) = store.text? (configFile root) ∧
      (resolveProject store root.normalize).value.rootFiles =
        (resolveProject store root).value.rootFiles ∧
      (resolveProject store root).value.rootFiles = [⟨"/lib/a.ts"⟩] := by
  intro store root
  have same : store.text? (configFile root.normalize) = store.text? (configFile root) := by
    decide +kernel
  have agree := combine_combine_resolves.2.2 store root same
  exact ⟨by decide +kernel, same, agree.2, by decide +kernel⟩

end ScriptAnalysis
