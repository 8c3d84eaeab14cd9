import Mathlib.Data.Finset.Card
import ScriptAnalysis.Proofs.Store.Tree

/-!
# Subtrees

Every directory of a tree that mutations build lies in a directory, up to the first component
(`isRooted_built`): a directory is created with everything above it, and it goes with everything
below it. The `subtree` of a place consists of the directories to which names lead from there, and
each of them but its top lies in another one (`IsRooted.mem_directories_of_concat`).
-/

namespace ScriptAnalysis

namespace Component

/-- The component as a name, if it is one. -/
def name? : Component → Option String
  | .name text => some text
  | _ => none

/-- Names lead from the place to the other one, or both are one place. -/
def NamesLead (place other : List Component) : Prop :=
  ∃ names : List String, other = place ++ names.map .name

theorem namesLead_iff {place other : List Component} :
    NamesLead place other ↔
      other = place ++ ((other.drop place.length).filterMap name?).map .name := by
  refine ⟨?_, fun shape => ⟨_, shape⟩⟩
  rintro ⟨names, rfl⟩
  have read : (names.map Component.name).filterMap name? = names := by
    rw [List.filterMap_map]
    exact List.filterMap_some
  rw [List.drop_left, read]

instance (place other : List Component) : Decidable (NamesLead place other) :=
  decidable_of_iff _ namesLead_iff.symm

end Component

namespace Tree

variable {tree : Tree} {path : SourcePath} {place above : List Component} {name : String}

/-- Everything that a directory begins with is a directory, apart from the empty place. -/
def IsRooted (tree : Tree) : Prop :=
  ∀ place ∈ tree.directories, ∀ above, above ≠ [] → above <+: place → above ∈ tree.directories

theorem mem_ancestors : above ∈ ancestors place ↔ above ≠ [] ∧ above <+: place := by
  rw [ancestors, List.mem_map]
  constructor
  · rintro ⟨count, inside, rfl⟩
    rw [List.mem_range] at inside
    refine ⟨?_, List.take_prefix _ _⟩
    rw [Ne, List.take_eq_nil_iff, not_or]
    exact ⟨Nat.succ_ne_zero count, List.ne_nil_of_length_pos (Nat.zero_lt_of_lt inside)⟩
  · rintro ⟨some, begins⟩
    have positive := List.length_pos_iff.mpr some
    have shorter := begins.length_le
    refine ⟨above.length - 1, List.mem_range.mpr (by omega), ?_⟩
    rw [Nat.sub_add_cancel positive]
    exact (List.prefix_iff_eq_take.mp begins).symm

theorem mem_directories_createDirectory :
    place ∈ (tree.createDirectory path).directories ↔
      place ∈ tree.directories ∨ place ∈ ancestors path.components := by
  rw [createDirectory, List.mem_append, List.mem_filter, Bool.not_eq_true',
    List.contains_eq_mem, decide_eq_false_iff_not]
  tauto

theorem IsRooted.createDirectory (rooted : tree.IsRooted) (path : SourcePath) :
    (tree.createDirectory path).IsRooted := by
  intro place member above some begins
  rw [mem_directories_createDirectory] at member ⊢
  refine member.imp (fun old => rooted place old above some begins) fun new => ?_
  exact mem_ancestors.mpr ⟨some, begins.trans (mem_ancestors.mp new).2⟩

theorem IsRooted.writeFile (rooted : tree.IsRooted) (path : SourcePath) (text : String) :
    (tree.writeFile path text).IsRooted := by
  rw [Tree.writeFile]
  cases path.parent with
  | some parent => exact rooted.createDirectory parent
  | none => exact rooted

/-- What stands above a directory that is kept is kept too. -/
theorem IsRooted.removeDirectory (rooted : tree.IsRooted) (path : SourcePath) :
    (tree.removeDirectory path).IsRooted := by
  intro place member above some begins
  obtain ⟨old, kept⟩ := List.mem_filter.mp member
  refine List.mem_filter.mpr ⟨rooted place old above some begins, ?_⟩
  rw [Bool.not_eq_true', ← Bool.not_eq_true, List.isPrefixOf_iff_prefix] at kept ⊢
  exact fun below => kept (below.trans begins)

theorem IsRooted.mutate (rooted : tree.IsRooted) (mutation : Mutation) :
    (tree.mutate mutation).IsRooted := by
  cases mutation with
  | writeFile path text => exact rooted.writeFile path text
  | createDirectory path => exact rooted.createDirectory path
  | removeFile path => exact rooted
  | removeDirectory path => exact rooted.removeDirectory path

/-- Every tree that mutations build is rooted. -/
theorem isRooted_built (mutations : List Mutation) : (built mutations).IsRooted := by
  have empty : Tree.empty.IsRooted := fun place member => by cases member
  exact List.foldlRecOn mutations Tree.mutate empty fun _ rooted mutation _ =>
    rooted.mutate mutation

/-- The directories to which names lead from a place, itself included. -/
def subtree (tree : Tree) (place : List Component) : Finset (List Component) :=
  tree.directories.toFinset.filter fun directory => Component.NamesLead place directory

theorem mem_subtree {directory : List Component} :
    directory ∈ tree.subtree place ↔
      directory ∈ tree.directories ∧ Component.NamesLead place directory := by
  rw [subtree, Finset.mem_filter, List.mem_toFinset]

/-- A directory of a subtree lies in another one, unless it is its top. -/
theorem IsRooted.mem_directories_of_concat (rooted : tree.IsRooted)
    (top : place ∈ tree.directories) {names : List String}
    (member : place ++ (names ++ [name]).map .name ∈ tree.directories) :
    place ++ names.map .name ∈ tree.directories := by
  by_cases empty : place ++ names.map .name = []
  · have nothing := List.append_eq_nil_iff.mp empty
    rw [nothing.1] at top
    rwa [empty]
  · refine rooted _ member _ empty ?_
    rw [List.map_append, ← List.append_assoc]
    exact List.prefix_append _ _

end Tree

end ScriptAnalysis
