import Mathlib.Data.List.TakeWhile
import ScriptAnalysis.Proofs.Path.Spelling

/-!
# Extensions of paths

An extension is what stands behind the last dot of the file name, if something stands before the dot
(`extensionOf_eq_some_iff`). The text of a path has the ending of an extension exactly if it ends in
a file name that has the extension or consists of the ending (`suffix_iff_extension`).
-/

namespace ScriptAnalysis

namespace SourcePath

variable {path : SourcePath} {ending : List Char}

/-- A character that occurs in a text occurs a last time. -/
theorem exists_last (mark : Char) (chars : List Char) :
    mark ∉ chars ∨ ∃ left right, chars = left ++ mark :: right ∧ mark ∉ right := by
  induction chars with
  | nil => exact .inl List.not_mem_nil
  | cons c rest inductionHypothesis =>
      rcases inductionHypothesis with free | ⟨left, right, rfl, free⟩
      · by_cases here : c = mark
        · exact .inr ⟨[], rest, by rw [here]; rfl, free⟩
        · exact .inl (by simp [Ne.symm here, free])
      · exact .inr ⟨c :: left, right, rfl, free⟩

/-- An ending without separator lies in the last stretch. -/
theorem suffix_of_suffix_append_separator {left name : List Char} (free : '/' ∉ ending)
    (ends : ending <:+ left ++ '/' :: name) : ending <:+ name := by
  rcases List.suffix_or_suffix_of_suffix ends (List.suffix_append left ('/' :: name)) with
    within | beyond
  · rcases List.suffix_cons_iff.mp within with rfl | inside
    · exact absurd List.mem_cons_self free
    · exact inside
  · exact absurd (beyond.subset List.mem_cons_self) free

/-- Neither nothing nor `.` nor `..` has three characters. -/
theorem isSegment_of_long {name : String} (long : 2 < name.length) (free : '/' ∉ name.toList) :
    (Component.name name).IsSegment := by
  refine ⟨?_, free⟩
  rw [← String.length_toList] at long
  rw [Component.text, Component.ofSegment]
  · rw [String.ofList_toList]
  all_goals
    intro short
    rw [short] at long
    exact absurd long (by decide)

/-- A last stretch that can stand between separators is the last component. -/
theorem exists_components_of_stretch {left : List Char} {name : String}
    (shape : path.text.toList = left ++ '/' :: name.toList)
    (segment : (Component.name name).IsSegment) :
    ∃ above, path.components = above ++ [.name name] := by
  obtain ⟨-, -, last⟩ := components_name segment
  rw [components, shape]
  cases left with
  | nil => exact ⟨[.root], by rw [List.nil_append, componentsOf_absolute, last]; rfl⟩
  | cons c others =>
      rw [componentsOf_append_separator (List.cons_ne_nil c others), last]
      exact ⟨_, rfl⟩

/-- The path is written with its file name at the end: neither separators nor `.` come behind. -/
def EndsInName (path : SourcePath) : Prop :=
  ∃ name, path.fileName = some name ∧ name.toList <:+ path.text.toList

/-- The file name of a path whose text has a long ending has that ending. -/
theorem exists_fileName_of_suffix (long : 2 < ending.length) (free : '/' ∉ ending)
    (ends : ending <:+ path.text.toList) :
    ∃ name, path.fileName = some name ∧ name.toList <:+ path.text.toList ∧
      ending <:+ name.toList := by
  have segment : ∀ {name : List Char}, ending <:+ name → '/' ∉ name →
      (Component.name (String.ofList name)).IsSegment := by
    intro name inside unbroken
    refine isSegment_of_long ?_ (by rwa [String.toList_ofList])
    rw [String.length_ofList]
    exact Nat.lt_of_lt_of_le long inside.length_le
  rcases exists_last '/' path.text.toList with unbroken | ⟨left, name, shape, unbroken⟩
  · obtain ⟨-, whole, -⟩ := components_name (segment ends unbroken)
    rw [String.ofList_toList] at whole
    exact ⟨path.text, fileName_eq_some_iff.mpr ⟨[], whole⟩, List.suffix_rfl, ends⟩
  · rw [shape] at ends ⊢
    have inside := suffix_of_suffix_append_separator free ends
    have stretch : path.text.toList = left ++ '/' :: (String.ofList name).toList := by
      rw [shape, String.toList_ofList]
    have named := exists_components_of_stretch stretch (segment inside unbroken)
    refine ⟨String.ofList name, fileName_eq_some_iff.mpr named, ?_, ?_⟩
    · rw [String.toList_ofList]
      exact (List.suffix_cons '/' name).trans (List.suffix_append _ _)
    · rwa [String.toList_ofList]

theorem extensionOf_of_notMem {name : List Char} (free : '.' ∉ name) : extensionOf name = none := by
  have nothing : name.reverse.dropWhile (· ≠ '.') = [] :=
    List.dropWhile_eq_nil_iff.mpr fun c member => by
      simpa using ne_of_mem_of_not_mem (List.mem_reverse.mp member) free
  rw [extensionOf, nothing]
  rfl

theorem extensionOf_append {extension : List Char} (stem : List Char) (free : '.' ∉ extension) :
    extensionOf (stem ++ '.' :: extension) = if stem = [] then none else some extension := by
  have undotted : ∀ c ∈ extension.reverse, decide (c ≠ '.') = true := fun c member => by
    simpa using ne_of_mem_of_not_mem (List.mem_reverse.mp member) free
  have reversed : (stem ++ '.' :: extension).reverse = extension.reverse ++ '.' :: stem.reverse := by
    simp
  have whole : (List.dropWhile (· ≠ '.') ('.' :: stem.reverse)).reverse.dropLast = stem := by simp
  have after : (extension.reverse ++ List.takeWhile (· ≠ '.') ('.' :: stem.reverse)).reverse =
      extension := by simp
  rw [extensionOf, reversed, List.takeWhile_append_of_pos undotted,
    List.dropWhile_append_of_pos undotted, whole, after]
  cases stem <;> rfl

/-- A name has an extension exactly if the extension stands behind its last dot and something
before it. -/
theorem extensionOf_eq_some_iff {name extension : List Char} :
    extensionOf name = some extension ↔
      ∃ stem, stem ≠ [] ∧ name = stem ++ '.' :: extension ∧ '.' ∉ extension := by
  constructor
  · intro found
    rcases exists_last '.' name with free | ⟨stem, right, rfl, free⟩
    · rw [extensionOf_of_notMem free] at found
      cases found
    · rw [extensionOf_append stem free] at found
      split at found
      · cases found
      · next nonempty =>
          cases found
          exact ⟨stem, nonempty, rfl, free⟩
  · rintro ⟨stem, nonempty, rfl, free⟩
    rw [extensionOf_append stem free, if_neg nonempty]

/-- A name with a dot before the ending has it as its extension, or consists of nothing else. -/
theorem suffix_iff_extensionOf {name extension : List Char} (free : '.' ∉ extension) :
    '.' :: extension <:+ name ↔ extensionOf name = some extension ∨ name = '.' :: extension := by
  rw [extensionOf_eq_some_iff]
  constructor
  · rintro ⟨stem, rfl⟩
    by_cases bare : stem = []
    · exact .inr (by rw [bare, List.nil_append])
    · exact .inl ⟨stem, bare, rfl, free⟩
  · rintro (⟨stem, -, rfl, -⟩ | rfl)
    · exact List.suffix_append _ _
    · exact List.suffix_rfl

/-- The text of a path has a long ending exactly if it ends in a file name that has it. -/
theorem suffix_iff_fileName (long : 2 < ending.length) (free : '/' ∉ ending) :
    ending <:+ path.text.toList ↔
      path.EndsInName ∧ ∃ name, path.fileName = some name ∧ ending <:+ name.toList := by
  constructor
  · intro ends
    obtain ⟨name, named, last, inside⟩ := exists_fileName_of_suffix long free ends
    exact ⟨⟨name, named, last⟩, name, named, inside⟩
  · rintro ⟨⟨name, named, last⟩, other, same, inside⟩
    rw [named, Option.some_inj] at same
    exact (same ▸ inside).trans last

theorem extension_eq_some_iff {extension : String} :
    path.extension = some extension ↔
      ∃ name, path.fileName = some name ∧ extensionOf name.toList = some extension.toList := by
  rw [SourcePath.extension, Option.bind_eq_some_iff]
  refine exists_congr fun name => and_congr_right fun _ => ?_
  rw [Option.map_eq_some_iff]
  constructor
  · rintro ⟨letters, found, rfl⟩
    rw [found, String.toList_ofList]
  · intro found
    exact ⟨extension.toList, found, String.ofList_toList⟩

/-- The text of a path has the ending of an extension exactly if it ends in a file name with that
extension, or in one that consists of the ending. -/
theorem suffix_iff_extension (path : SourcePath) (extension : String)
    (long : 1 < extension.length) (undotted : '.' ∉ extension.toList)
    (free : '/' ∉ extension.toList) :
    '.' :: extension.toList <:+ path.text.toList ↔
      path.EndsInName ∧
        (path.extension = some extension ∨ path.fileName = some ("." ++ extension)) := by
  have longer : 2 < ('.' :: extension.toList).length := by
    rw [List.length_cons, String.length_toList]
    omega
  have unbroken : '/' ∉ '.' :: extension.toList := by simp [free]
  rw [suffix_iff_fileName longer unbroken]
  refine and_congr_right fun _ => ?_
  have bare : ∀ name : String,
      name.toList = '.' :: extension.toList ↔ name = "." ++ extension := fun name => by
    rw [← String.toList_inj, String.toList_append]
    rfl
  simp only [suffix_iff_extensionOf undotted, bare, and_or_left, exists_or, exists_eq_right,
    extension_eq_some_iff]

end SourcePath

end ScriptAnalysis
