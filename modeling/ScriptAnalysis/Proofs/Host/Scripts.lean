import ScriptAnalysis.Proofs.Host.Questions
import ScriptAnalysis.Proofs.Path.Extension

/-!
# Root scripts

Whether a path is a root script is read off its text, and the kind of a file off its last component.
The two agree on every path that is written with its file name at the end, except for files whose
name is nothing but the ending (`SourcePath.isRootScript_iff`).
-/

namespace ScriptAnalysis

namespace SourcePath

variable {path : SourcePath}

theorem ofExtension_script_iff {extension : String} :
    ScriptKind.ofExtension extension = .ts ∨ ScriptKind.ofExtension extension = .tsx ↔
      lowered extension = "ts" ∨ lowered extension = "tsx" := by
  simp only [ScriptKind.ofExtension]
  grind

/-- The kind of the file is one of the two that are root scripts, and its extension is in small
letters. -/
def HasScriptExtension (path : SourcePath) : Prop :=
  (ScriptKind.ofPath path = .ts ∨ ScriptKind.ofPath path = .tsx) ∧
    ∀ extension, path.extension = some extension → lowered extension = extension

theorem hasScriptExtension_iff :
    path.HasScriptExtension ↔ path.extension = some "ts" ∨ path.extension = some "tsx" := by
  rw [HasScriptExtension, ScriptKind.ofPath]
  cases path.extension with
  | none => simp
  | some extension =>
      simp only [ofExtension_script_iff, Option.some_inj, forall_eq']
      constructor
      · rintro ⟨kind, small⟩
        rwa [small] at kind
      · rintro (rfl | rfl) <;> decide

/-- The file name consists of the ending of a root script. -/
def IsBareEnding (path : SourcePath) : Prop :=
  path.fileName = some ".ts" ∨ path.fileName = some ".tsx"

/-- A path is a root script exactly if it is written with its file name at the end, and the file is
of one of the two kinds, with its extension in small letters, or its name is one of the two
endings. -/
theorem isRootScript_iff (path : SourcePath) :
    path.isRootScript = true ↔
      path.EndsInName ∧ (path.HasScriptExtension ∨ path.IsBareEnding) := by
  have short : ['.', 't', 's'] <:+ path.text.toList ↔ path.EndsInName ∧
      (path.extension = some "ts" ∨ path.fileName = some ".ts") :=
    suffix_iff_extension path "ts" (by decide) (by decide) (by decide)
  have long : ['.', 't', 's', 'x'] <:+ path.text.toList ↔ path.EndsInName ∧
      (path.extension = some "tsx" ∨ path.fileName = some ".tsx") :=
    suffix_iff_extension path "tsx" (by decide) (by decide) (by decide)
  rw [isRootScript, Bool.or_eq_true, List.isSuffixOf_iff_suffix, List.isSuffixOf_iff_suffix,
    hasScriptExtension_iff, IsBareEnding, or_or_or_comm, and_or_left]
  exact or_congr short long

instance (path : SourcePath) : Decidable path.EndsInName :=
  inferInstanceAs (Decidable (∃ name ∈ path.fileName, name.toList <:+ path.text.toList))

instance (path : SourcePath) : Decidable path.HasScriptExtension :=
  decidable_of_iff _ hasScriptExtension_iff.symm

instance (path : SourcePath) : Decidable path.IsBareEnding :=
  inferInstanceAs (Decidable (_ ∨ _))

/-- Spellings of one place that end in the file name are root scripts or not together. -/
theorem isRootScript_congr {left right : SourcePath} (same : left.components = right.components)
    (leftEnds : left.EndsInName) (rightEnds : right.EndsInName) :
    left.isRootScript = right.isRootScript := by
  have name : left.fileName = right.fileName := by rw [fileName, fileName, same]
  have extension : left.extension = right.extension := by
    rw [SourcePath.extension, SourcePath.extension, name]
  rw [Bool.eq_iff_iff, isRootScript_iff, isRootScript_iff, hasScriptExtension_iff,
    hasScriptExtension_iff, IsBareEnding, IsBareEnding, name, extension]
  exact and_congr_left fun _ => iff_of_true leftEnds rightEnds

end SourcePath

namespace Host

/-- Of the files that it tracks, a host names those as root scripts, in their order, whose path is
written with the file name at the end and whose extension is `ts` or `tsx` or whose name is nothing
but such an ending. So the test of a path agrees with the kind of the file, up to these endings and
to what is written behind the name, and it does not depend on how the place is spelled before. -/
theorem scriptFileNames_by_extension :
    (∀ (store : SourceStore) (host : Host),
      (host.answer store .scriptFileNames).value.1 = host.tracked.filter fun path =>
        path.EndsInName ∧
          (path.extension = some "ts" ∨ path.extension = some "tsx" ∨ path.IsBareEnding)) ∧
    (∀ path : SourcePath, path.isRootScript = true ↔
      path.EndsInName ∧ (path.HasScriptExtension ∨ path.IsBareEnding)) ∧
    ∀ left right : SourcePath, left.components = right.components → left.EndsInName →
      right.EndsInName → left.isRootScript = right.isRootScript := by
  refine ⟨fun store host => ?_, SourcePath.isRootScript_iff,
    fun _ _ same leftEnds rightEnds => SourcePath.isRootScript_congr same leftEnds rightEnds⟩
  refine List.filter_congr fun path _ => ?_
  rw [Bool.eq_iff_iff, SourcePath.isRootScript_iff, SourcePath.hasScriptExtension_iff, or_assoc,
    decide_eq_true_iff]

/-- Two spellings of a place, neither of them plain. -/
theorem scriptFileNames_by_extension_two_spellings :
    let left : SourcePath := ⟨"/p//a.d.ts"⟩
    let right : SourcePath := ⟨"/p/./a.d.ts"⟩
    (left.components = right.components ∧ left.EndsInName ∧ right.EndsInName) ∧
      left.isRootScript = right.isRootScript := by
  intro left right
  have same : left.components = right.components := by decide
  have leftEnds : left.EndsInName := by decide
  have rightEnds : right.EndsInName := by decide
  exact ⟨⟨same, leftEnds, rightEnds⟩,
    scriptFileNames_by_extension.2.2 left right same leftEnds rightEnds⟩

/-- A tracked file that is called by the ending alone is named though it has no extension, and one
whose path has a separator behind it is not named though it has the extension. -/
theorem scriptFileNames_miss_extension :
    let store := (Tree.built
      [.writeFile ⟨"/p/.ts"⟩ "let a;", .writeFile ⟨"/p/a.ts"⟩ "let b;"]).store
    let host := (askAll store [.scriptSnapshot ⟨"/p/.ts"⟩, .scriptSnapshot ⟨"/p/a.ts/"⟩]
      (create ⟨"/p"⟩ CompilationSettings.empty HostOptions.standard)).value
    host.tracked = [⟨"/p/.ts"⟩, ⟨"/p/a.ts/"⟩] ∧
      (host.answer store .scriptFileNames).value.1 = ([⟨"/p/.ts"⟩] : List SourcePath) ∧
      (⟨"/p/.ts"⟩ : SourcePath).extension = none ∧
      (⟨"/p/a.ts/"⟩ : SourcePath).extension = some "ts" ∧
      (⟨"/p/a.ts/"⟩ : SourcePath).components = (⟨"/p/a.ts"⟩ : SourcePath).components ∧
      (⟨"/p/a.ts"⟩ : SourcePath).isRootScript = true := by
  intro store host
  have tracked : host.tracked = [⟨"/p/.ts"⟩, ⟨"/p/a.ts/"⟩] := by decide +kernel
  have named : host.tracked.filter SourcePath.isRootScript = [⟨"/p/.ts"⟩] := by
    rw [tracked]
    decide
  exact ⟨tracked, named, by decide, by decide, by decide, by decide⟩

end Host

end ScriptAnalysis
