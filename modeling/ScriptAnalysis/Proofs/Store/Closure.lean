import ScriptAnalysis.Proofs.Store.Subtree
import ScriptAnalysis.Proofs.Text.Order

/-!
# Closure under parents

Nothing in a tree that mutations build hangs in the air: every file and every directory lies in a
directory, up to the top (`isClosed_built`). A file is written with the directories above it, and a
directory is removed with everything below it. So whatever has entries is a directory, apart from
the empty path (`built_isTree`).
-/

namespace ScriptAnalysis

namespace Tree

variable {tree : Tree} {path : SourcePath} {place : List Component} {name : String}

/-- A file or a directory is there. -/
def Holds (tree : Tree) (path : SourcePath) : Prop :=
  tree.isDirectory path = true ∨ (tree.text? path).isSome = true

instance (tree : Tree) (path : SourcePath) : Decidable (tree.Holds path) :=
  inferInstanceAs (Decidable (_ ∨ _))

theorem isSome_text?_iff :
    (tree.text? path).isSome = true ↔ path.components ∈ tree.files.map (·.1) := by
  rw [text?, Option.isSome_map, List.find?_isSome, List.mem_map]
  simp only [beq_iff_eq]

theorem holds_iff : tree.Holds path ↔ path.components ∈ tree.places := by
  rw [Holds, isDirectory_iff, isSome_text?_iff, places, List.mem_append, or_comm]

/-- Everything lies in a directory, up to the top: directories with all that stands above them,
files with what stands directly above. -/
structure IsClosed (tree : Tree) : Prop where
  rooted : tree.IsRooted
  housed : ∀ file ∈ tree.files, file.1.dropLast ≠ [] → file.1.dropLast ∈ tree.directories

/-- What stands directly above anything in a closed tree is a directory. -/
theorem IsClosed.dropLast_mem (closed : tree.IsClosed) (member : place ∈ tree.places)
    (inner : place.dropLast ≠ []) : place.dropLast ∈ tree.directories := by
  rcases List.mem_append.mp member with file | directory
  · obtain ⟨entry, there, rfl⟩ := List.mem_map.mp file
    exact closed.housed entry there inner
  · exact closed.rooted place directory _ inner (List.dropLast_prefix place)

theorem IsClosed.createDirectory (closed : tree.IsClosed) (path : SourcePath) :
    (tree.createDirectory path).IsClosed where
  rooted := closed.rooted.createDirectory path
  housed file member inner := by
    rw [mem_directories_createDirectory]
    exact .inl (closed.housed file member inner)

/-- A file may be put where a directory is there for it. -/
theorem IsClosed.put (closed : tree.IsClosed) (path : SourcePath) (text : String)
    (housed : path.components.dropLast ≠ [] → path.components.dropLast ∈ tree.directories) :
    ({ tree with
      files := tree.files.filter (fun file => file.1 != path.components) ++
        [(path.components, text)] } : Tree).IsClosed where
  rooted := closed.rooted
  housed file member inner := by
    rcases List.mem_append.mp member with kept | new
    · exact closed.housed file (List.mem_of_mem_filter kept) inner
    · rw [List.mem_singleton.mp new] at inner ⊢
      exact housed inner

theorem IsClosed.writeFile (closed : tree.IsClosed) (path : SourcePath) (text : String) :
    (tree.writeFile path text).IsClosed := by
  rw [Tree.writeFile]
  cases above : path.parent with
  | some parent =>
      refine (closed.createDirectory parent).put path text fun inner => ?_
      rw [← SourcePath.components_parent above] at inner ⊢
      exact mem_directories_createDirectory.mpr (.inr (mem_ancestors.mpr ⟨inner, List.prefix_rfl⟩))
  | none =>
      exact closed.put path text fun inner =>
        absurd (SourcePath.dropLast_components_of_parent above) inner

theorem IsClosed.removeFile (closed : tree.IsClosed) (path : SourcePath) :
    (tree.removeFile path).IsClosed where
  rooted := closed.rooted
  housed file member := closed.housed file (List.mem_of_mem_filter member)

/-- A file that is kept lies in a directory that is kept. -/
theorem IsClosed.removeDirectory (closed : tree.IsClosed) (path : SourcePath) :
    (tree.removeDirectory path).IsClosed where
  rooted := closed.rooted.removeDirectory path
  housed file member inner := by
    obtain ⟨old, kept⟩ := List.mem_filter.mp member
    refine List.mem_filter.mpr ⟨closed.housed file old inner, ?_⟩
    rw [Bool.not_eq_true', ← Bool.not_eq_true, List.isPrefixOf_iff_prefix] at kept ⊢
    exact fun below => kept (below.trans (List.dropLast_prefix file.1))

theorem IsClosed.mutate (closed : tree.IsClosed) (mutation : Mutation) :
    (tree.mutate mutation).IsClosed := by
  cases mutation with
  | writeFile path text => exact closed.writeFile path text
  | createDirectory path => exact closed.createDirectory path
  | removeFile path => exact closed.removeFile path
  | removeDirectory path => exact closed.removeDirectory path

theorem isClosed_empty : Tree.empty.IsClosed where
  rooted _ member := by cases member
  housed _ member := by cases member

/-- Every tree that mutations build is closed. -/
theorem isClosed_built (mutations : List Mutation) : (built mutations).IsClosed :=
  List.foldlRecOn mutations Tree.mutate isClosed_empty fun _ closed mutation _ =>
    closed.mutate mutation

/-- What stands above anything in a closed tree is a directory, unless it is the empty path. -/
theorem IsClosed.isDirectory_parent (closed : tree.IsClosed) (holds : tree.Holds path)
    {parent : SourcePath} (above : path.parent = some parent) (inner : parent.text ≠ "") :
    tree.isDirectory parent = true := by
  have place := SourcePath.components_parent above
  have nonempty := SourcePath.components_ne_nil inner
  rw [place] at nonempty
  rw [isDirectory_iff, place]
  exact closed.dropLast_mem (holds_iff.mp holds) nonempty

/-- The entries of a path are the names of what has this path for its parent. -/
theorem IsWritten.mem_entryNames_iff (written : tree.IsWritten) :
    name ∈ tree.entryNames path ↔ ∃ entry parent, tree.Holds entry ∧
      entry.parent = some parent ∧ parent.Same path ∧ entry.fileName = some name := by
  constructor
  · intro listed
    have segment := written.isSegment_of_mem_entryNames listed
    have joined := path.components_join_name segment
    refine ⟨path.join ⟨name⟩, path.plain, holds_iff.mpr ?_,
      SourcePath.parent_of_components joined, path.components_plain,
      SourcePath.fileName_eq_some_iff.mpr ⟨_, joined⟩⟩
    rw [joined]
    exact mem_entryNames.mp listed
  · rintro ⟨entry, parent, holds, above, same, named⟩
    obtain ⟨directory, shape⟩ := SourcePath.fileName_eq_some_iff.mp named
    have place := SourcePath.components_parent above
    rw [shape, List.dropLast_concat, same] at place
    rw [mem_entryNames, place, ← shape]
    exact holds_iff.mp holds

/-- Whatever mutations build is a tree: the parent of everything in it is a directory, unless it is
the empty path. So only directories have entries, again apart from the empty path. The entries of a
path ascend strictly by their bytes, and they are the names of the files and directories whose
parent is this path. -/
theorem built_isTree (mutations : List Mutation) :
    let tree := built mutations
    (∀ path parent, tree.Holds path → path.parent = some parent → parent.text ≠ "" →
      tree.isDirectory parent = true) ∧
    (∀ path, path.text ≠ "" → tree.entryNames path ≠ [] → tree.isDirectory path = true) ∧
    ∀ path, ((tree.entryNames path).Pairwise fun left right =>
        Text.bytes left.toList < Text.bytes right.toList) ∧
      ∀ name, name ∈ tree.entryNames path ↔ ∃ entry parent, tree.Holds entry ∧
        entry.parent = some parent ∧ parent.Same path ∧ entry.fileName = some name := by
  intro tree
  have closed : tree.IsClosed := isClosed_built mutations
  have written : tree.IsWritten := isWritten_built mutations
  refine ⟨fun path parent holds above inner => closed.isDirectory_parent holds above inner,
    fun path nonempty entries => ?_, fun path => ⟨?_, fun name => written.mem_entryNames_iff⟩⟩
  · obtain ⟨name, listed⟩ := List.exists_mem_of_ne_nil _ entries
    have place := closed.dropLast_mem (mem_entryNames.mp listed)
    rw [List.dropLast_concat] at place
    exact isDirectory_iff.mpr (place (SourcePath.components_ne_nil nonempty))
  · exact (pairwise_entryNames tree path).imp fun before =>
      Text.bytes_lt_bytes (String.lt_iff_toList_lt.mp before)

/-- A file and a directory behind a `.` and a `..`, after another directory was removed. -/
theorem built_isTree_leading_up :
    let tree := built [.writeFile ⟨"./lib/../é/a.ts"⟩ "", .createDirectory ⟨"./lib/../é/Z/"⟩,
      .writeFile ⟨"/p/b.ts"⟩ "b", .removeFile ⟨"./lib"⟩, .removeDirectory ⟨"/p"⟩]
    tree.Holds ⟨"./lib/../é/a.ts"⟩ ∧
      (SourcePath.mk "./lib/../é/a.ts").parent = some ⟨"./lib/../é"⟩ ∧
      tree.isDirectory ⟨"./lib/../é"⟩ = true ∧ tree.isDirectory ⟨"./lib/.."⟩ = true ∧
      tree.entryNames ⟨"./lib/../é"⟩ = ["Z", "a.ts"] ∧ ¬ tree.Holds ⟨"/p"⟩ ∧
      ∃ entry parent, tree.Holds entry ∧ entry.parent = some parent ∧
        parent.Same ⟨"./lib//../é"⟩ ∧ entry.fileName = some "Z" := by
  intro tree
  obtain ⟨parents, directories, entries⟩ := built_isTree
    [.writeFile ⟨"./lib/../é/a.ts"⟩ "", .createDirectory ⟨"./lib/../é/Z/"⟩,
      .writeFile ⟨"/p/b.ts"⟩ "b", .removeFile ⟨"./lib"⟩, .removeDirectory ⟨"/p"⟩]
  have holds : tree.Holds ⟨"./lib/../é/a.ts"⟩ := by decide +kernel
  have above : (SourcePath.mk "./lib/../é/a.ts").parent = some ⟨"./lib/../é"⟩ := by
    decide +kernel
  exact ⟨holds, above, parents _ _ holds above (by decide), directories _ (by decide)
    (by decide +kernel), by decide +kernel, by decide +kernel,
    ((entries ⟨"./lib//../é"⟩).2 "Z").mp (by decide +kernel)⟩

end Tree

end ScriptAnalysis
