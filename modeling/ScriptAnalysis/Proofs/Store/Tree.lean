import ScriptAnalysis.Proofs.Path.Spelling
import ScriptAnalysis.Store.Tree

/-!
# Trees under mutation

A `Mutation` is one change of a store in memory. Only names that can stand between
separators ever get into a tree (`isWritten_built`), so the entries of a directory are
exactly the places one name below it (`mem_entryNames`). `changedFiles` and
`changedDirectories` list what a mutation has changed.
-/

namespace ScriptAnalysis

/-- One change of a store in memory. -/
inductive Mutation where
  | writeFile (path : SourcePath) (text : String)
  | createDirectory (path : SourcePath)
  | removeFile (path : SourcePath)
  | removeDirectory (path : SourcePath)
  deriving DecidableEq, Repr

/-- The text that a mutation brings in. -/
def Mutation.texts : Mutation → List String
  | .writeFile _ text => [text]
  | .createDirectory _ => []
  | .removeFile _ => []
  | .removeDirectory _ => []

namespace Tree

variable {tree before after : Tree} {path : SourcePath} {place : List Component} {name : String}

/-- The tree after a mutation. -/
def mutate (tree : Tree) : Mutation → Tree
  | .writeFile path text => tree.writeFile path text
  | .createDirectory path => tree.createDirectory path
  | .removeFile path => tree.removeFile path
  | .removeDirectory path => tree.removeDirectory path

/-- The tree that mutations build, the first one first. -/
def built (mutations : List Mutation) : Tree :=
  mutations.foldl mutate empty

/-- The places of all files and directories. -/
def places (tree : Tree) : List (List Component) :=
  tree.files.map (·.1) ++ tree.directories

/-- Every name in the tree can stand between separators. -/
def IsWritten (tree : Tree) : Prop :=
  ∀ place ∈ tree.places, ∀ name, .name name ∈ place → (Component.name name).IsSegment

theorem isWritten_empty : empty.IsWritten := by
  intro place member
  cases member

theorem IsWritten.createDirectory (written : tree.IsWritten) (path : SourcePath) :
    (tree.createDirectory path).IsWritten := by
  intro place member name inside
  simp only [places, Tree.createDirectory, List.mem_append, List.mem_filter] at member
  rcases member with file | directory | ⟨new, _⟩
  · exact written place (List.mem_append_left _ file) name inside
  · exact written place (List.mem_append_right _ directory) name inside
  · obtain ⟨count, _, rfl⟩ := List.mem_map.mp new
    exact SourcePath.isSegment_of_mem_components (List.mem_of_mem_take inside)

theorem IsWritten.put (written : tree.IsWritten) (path : SourcePath) (text : String) :
    ({ tree with
      files := tree.files.filter (fun file => file.1 != path.components) ++
        [(path.components, text)] } : Tree).IsWritten := by
  intro place member name inside
  simp only [places, List.map_append, List.map_cons, List.map_nil, List.mem_append,
    List.mem_singleton] at member
  rcases member with (file | new) | directory
  · obtain ⟨entry, kept, rfl⟩ := List.mem_map.mp file
    have there : entry.1 ∈ tree.places :=
      List.mem_append_left _ (List.mem_map_of_mem (List.mem_of_mem_filter kept))
    exact written _ there name inside
  · subst new
    exact SourcePath.isSegment_of_mem_components inside
  · exact written place (List.mem_append_right _ directory) name inside

theorem IsWritten.writeFile (written : tree.IsWritten) (path : SourcePath) (text : String) :
    (tree.writeFile path text).IsWritten := by
  rw [Tree.writeFile]
  cases path.parent with
  | some parent => exact (written.createDirectory parent).put path text
  | none => exact written.put path text

/-- A part of a tree has no other names. -/
theorem IsWritten.of_subset (written : before.IsWritten)
    (files : after.files ⊆ before.files) (directories : after.directories ⊆ before.directories) :
    after.IsWritten := by
  intro place member
  apply written place
  rcases List.mem_append.mp member with file | directory
  · exact List.mem_append_left _ (List.map_subset _ files file)
  · exact List.mem_append_right _ (directories directory)

theorem IsWritten.mutate (written : tree.IsWritten) (mutation : Mutation) :
    (tree.mutate mutation).IsWritten := by
  cases mutation with
  | writeFile path text => exact written.writeFile path text
  | createDirectory path => exact written.createDirectory path
  | removeFile path =>
      exact written.of_subset List.filter_sublist.subset (List.Subset.refl _)
  | removeDirectory path =>
      exact written.of_subset List.filter_sublist.subset List.filter_sublist.subset

/-- Every tree that mutations build is written. -/
theorem isWritten_built (mutations : List Mutation) : (built mutations).IsWritten := by
  suffices ∀ tree : Tree, tree.IsWritten → (mutations.foldl Tree.mutate tree).IsWritten from
    this empty isWritten_empty
  induction mutations with
  | nil => exact fun tree written => written
  | cons first rest inductionHypothesis =>
      intro tree written
      exact inductionHypothesis _ (written.mutate first)

@[simp]
theorem store_isDirectory (tree : Tree) (path : SourcePath) :
    tree.store.isDirectory path = tree.directories.contains path.components := rfl

@[simp]
theorem store_entryNames (tree : Tree) (path : SourcePath) :
    tree.store.entryNames path = tree.entryNames path := rfl

theorem isDirectory_iff : tree.isDirectory path = true ↔ path.components ∈ tree.directories :=
  List.contains_iff_mem

theorem childName_eq_some_iff {directory : List Component} :
    childName directory place = some name ↔ place = directory ++ [.name name] := by
  unfold childName
  split
  · next text last =>
      obtain ⟨above, rfl⟩ := List.getLast?_eq_some_iff.mp last
      simp [eq_comm]
  · next unnamed =>
      constructor
      · rintro ⟨⟩
      · rintro rfl
        exact absurd List.getLast?_concat (unnamed name)

/-- The entries of a directory are the places one name below it. -/
theorem mem_entryNames :
    name ∈ tree.entryNames path ↔ path.components ++ [.name name] ∈ tree.places := by
  rw [entryNames, Text.mem_sortedDistinct, List.mem_filterMap]
  simp only [childName_eq_some_iff]
  exact ⟨fun ⟨_, member, same⟩ => same ▸ member, fun member => ⟨_, member, rfl⟩⟩

theorem mem_entryNames_of_isDirectory
    (member : path.components ++ [.name name] ∈ tree.directories) :
    name ∈ tree.entryNames path :=
  mem_entryNames.mpr (List.mem_append_right _ member)

theorem pairwise_entryNames (tree : Tree) (path : SourcePath) :
    (tree.entryNames path).Pairwise (· < ·) :=
  Text.pairwise_sortedDistinct _

/-- Every entry of a directory has a name that can be written. -/
theorem IsWritten.isSegment_of_mem_entryNames (written : tree.IsWritten)
    (member : name ∈ tree.entryNames path) : (Component.name name).IsSegment :=
  written _ (mem_entryNames.mp member) name (by simp)

/-- No directory lies deeper than the nesting of the store. -/
theorem length_le_nesting (member : place ∈ tree.directories) :
    place.length ≤ tree.store.nesting := by
  have listed : place.length ∈ tree.directories.map List.length := List.mem_map_of_mem member
  calc place.length
    _ ≤ (tree.directories.map List.length).max?.getD 0 := List.le_max?_getD_of_mem listed
    _ ≤ max 0 ((tree.directories.map List.length).max?.getD 0) := Nat.le_max_right _ _
    _ = tree.store.nesting := List.foldl_max.symm

/-- The text at a place. -/
def textAt (tree : Tree) (place : List Component) : Option String :=
  (tree.files.find? fun file => file.1 == place).map (·.2)

theorem text?_eq_textAt (tree : Tree) (path : SourcePath) :
    tree.text? path = tree.textAt path.components := rfl

/-- The places of the files whose text two trees do not have in common. -/
def changedFiles (before after : Tree) : List (List Component) :=
  (before.files.map (·.1) ++ after.files.map (·.1)).filter fun place =>
    before.textAt place != after.textAt place

theorem textAt_eq_none (tree : Tree) (absent : place ∉ tree.files.map (·.1)) :
    tree.textAt place = none := by
  rw [textAt, Option.map_eq_none_iff, List.find?_eq_none]
  intro file member same
  exact absent (List.mem_map.mpr ⟨file, member, by simpa using same⟩)

theorem mem_files_of_textAt {text : String} (found : tree.textAt place = some text) :
    ∃ file ∈ tree.files, file.2 = text := by
  obtain ⟨file, first, same⟩ := Option.map_eq_some_iff.mp found
  exact ⟨file, List.mem_of_find?_eq_some first, same⟩

/-- A mutation brings in its own text only. -/
theorem mem_files_mutate {mutation : Mutation} {file : List Component × String}
    (member : file ∈ (tree.mutate mutation).files) :
    file ∈ tree.files ∨ file.2 ∈ mutation.texts := by
  cases mutation with
  | writeFile path text =>
      rw [mutate, Tree.writeFile] at member
      rcases List.mem_append.mp member with kept | new
      · refine .inl ?_
        have there := List.mem_of_mem_filter kept
        cases above : path.parent with
        | some parent => rw [above] at there; exact there
        | none => rw [above] at there; exact there
      · rw [List.mem_singleton.mp new]
        exact .inr (List.mem_singleton_self text)
  | createDirectory path => exact .inl member
  | removeFile path => exact .inl (List.mem_of_mem_filter member)
  | removeDirectory path => exact .inl (List.mem_of_mem_filter member)

theorem mem_changedFiles :
    place ∈ changedFiles before after ↔ before.textAt place ≠ after.textAt place := by
  rw [changedFiles, List.mem_filter, bne_iff_ne, and_iff_right_iff_imp]
  intro differ
  by_contra absent
  rw [List.mem_append, not_or] at absent
  exact differ ((textAt_eq_none before absent.1).trans (textAt_eq_none after absent.2).symm)

/-- The places that are a directory in one of two trees only. -/
def changedDirectories (before after : Tree) : List (List Component) :=
  (before.directories ++ after.directories).filter fun place =>
    before.directories.contains place != after.directories.contains place

theorem mem_changedDirectories :
    place ∈ changedDirectories before after ↔
      ¬(place ∈ before.directories ↔ place ∈ after.directories) := by
  rw [changedDirectories, List.mem_filter, bne_iff_ne, ne_eq, Bool.eq_iff_iff,
    List.contains_iff_mem, List.contains_iff_mem, and_iff_right_iff_imp, List.mem_append]
  tauto

end Tree

end ScriptAnalysis
