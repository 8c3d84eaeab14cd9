import Mathlib.Data.List.Sort
import ScriptAnalysis.Cache.Listings
import ScriptAnalysis.Proofs.Path.Map
import ScriptAnalysis.Proofs.Store.Tree
import ScriptAnalysis.Proofs.Traced

/-!
# Coherence of the directory cache

A cached listing may be behind the store only where a change is still `waiting` to be
announced: `IsCurrent` says so of one listing and `Coherent` of a whole cache. Exploring
trusts the listings that it finds on its way, also those that are behind, and keeps the
cache coherent nevertheless, because what it takes over wrongly is itself waiting.
-/

namespace ScriptAnalysis

variable {tree after : Tree} {waiting : List (List Component)} {place : List Component}
  {names : List String} {cache : DirectoryCache} {path directory : SourcePath}

/-- What the listing of a place still says truly about a tree whose changed places may be
waiting. -/
structure IsCurrent (tree : Tree) (waiting : List (List Component)) (place : List Component)
    (names : List String) : Prop where
  /-- Only a directory has a listing, unless it has just gone. -/
  status : place ∈ tree.directories ∨ place ∈ waiting
  ascending : names.Pairwise (· < ·)
  /-- A subdirectory is listed exactly if it is there, unless it has just come or gone. -/
  listed : ∀ name, place ++ [.name name] ∉ waiting →
    (name ∈ names ↔ place ++ [.name name] ∈ tree.directories)

namespace IsCurrent

/-- A mutation adds what it changes to what is waiting. -/
theorem mutate (current : IsCurrent tree waiting place names) (after : Tree) :
    IsCurrent after (waiting ++ Tree.changedDirectories tree after) place names where
  status := by
    simp only [List.mem_append, Tree.mem_changedDirectories]
    have before := current.status
    tauto
  ascending := current.ascending
  listed name quiet := by
    rw [List.mem_append, not_or, Tree.mem_changedDirectories, not_not] at quiet
    exact (current.listed name quiet.1).trans quiet.2

/-- Fewer places may wait as long as none of them is the listed place or directly inside
it. -/
theorem settle (current : IsCurrent tree waiting place names) {still : List (List Component)}
    (itself : place ∈ waiting → place ∈ still)
    (inside : ∀ name, place ++ [.name name] ∈ waiting → place ++ [.name name] ∈ still) :
    IsCurrent tree still place names where
  status := current.status.imp_right itself
  ascending := current.ascending
  listed name quiet := current.listed name fun waits => quiet (inside name waits)

end IsCurrent

namespace DirectoryCache

/-- Every listing of an absolute path without `.` and `..` is current. -/
def Coherent (tree : Tree) (waiting : List (List Component)) (cache : DirectoryCache) : Prop :=
  ∀ path names, path.IsStraight → cache.cached? path = some names →
    IsCurrent tree waiting path.components names

theorem coherent_empty : Coherent tree waiting empty := by
  intro path names straight found
  cases found

/-- A mutation behind the back of the cache. -/
theorem Coherent.mutate (coherent : Coherent tree waiting cache) (after : Tree) :
    Coherent after (waiting ++ Tree.changedDirectories tree after) cache :=
  fun path names straight found => (coherent path names straight found).mutate after

theorem cached?_invalidateUnder (cache : DirectoryCache) (directory path : SourcePath) :
    (cache.invalidateUnder directory).2.cached? path =
      if path.within directory then none else cache.cached? path := by
  have alike : ∀ left right : SourcePath, left.components = right.components →
      (!left.within directory) = !right.within directory := fun left right same => by
    rw [SourcePath.within, SourcePath.within, same]
  rw [invalidateUnder, cached?, PathMap.find?_filterKeys alike]
  cases path.within directory <;> rfl

/-- Where no listing is dropped, nothing changes. -/
theorem invalidateUnder_eq_self (none : (cache.invalidateUnder directory).1 = 0) :
    (cache.invalidateUnder directory).2 = cache := by
  have shorter : cache.listings.entries.length ≤
      (cache.listings.entries.filter fun entry => !entry.1.within directory).length :=
    Nat.sub_eq_zero_iff_le.mp none
  have whole := List.length_filter_eq_length_iff.mp
    (Nat.le_antisymm (List.length_filter_le _ _) shorter)
  exact congrArg (fun entries => DirectoryCache.mk ⟨entries⟩) (List.filter_eq_self.mpr whole)

/-- Whether the announcement of a directory covers the change at a place: the directory
lies properly above it, or both are the root. -/
def announces (directory : SourcePath) (place : List Component) : Bool :=
  directory.components.isPrefixOf place &&
    (directory.components != place || place == [.root])

/-- An announcement covers no change at a path outside its subtree or directly inside such a
path. -/
theorem not_announces_of_outside (outside : path.within directory = false) :
    announces directory path.components = false ∧
      ∀ name, announces directory (path.components ++ [.name name]) = false := by
  have outside : ¬ directory.components <+: path.components := by
    rw [← SourcePath.within_iff, outside]
    exact Bool.false_ne_true
  refine ⟨?_, fun name => ?_⟩
  · rw [announces, Bool.eq_false_iff.mpr fun above => outside (List.isPrefixOf_iff_prefix.mp above),
      Bool.false_and]
  · rw [announces, Bool.and_eq_false_iff]
    by_cases above : directory.components <+: path.components ++ [.name name]
    · -- A prefix of the longer place is a prefix of the path or the longer place itself.
      rcases List.prefix_concat_iff.mp above with same | shorter
      · have notRoot : path.components ++ [.name name] ≠ [.root] := fun root => by
          have last := congrArg List.getLast? root
          rw [List.getLast?_concat] at last
          cases last
        exact .inr (by rw [same, bne_self_eq_false, beq_false_of_ne notRoot]; rfl)
      · exact absurd shorter outside
    · exact .inl (Bool.eq_false_iff.mpr fun prefixed =>
        above (List.isPrefixOf_iff_prefix.mp prefixed))

/-- Dropping the listings of a subtree settles the changes that its announcement covers. -/
theorem Coherent.invalidateUnder (coherent : Coherent tree waiting cache)
    (directory : SourcePath) :
    Coherent tree (waiting.filter fun place => !announces directory place)
      (cache.invalidateUnder directory).2 := by
  intro path names straight found
  rw [cached?_invalidateUnder] at found
  split at found
  · cases found
  · next outside =>
      obtain ⟨itself, inside⟩ := not_announces_of_outside (Bool.eq_false_iff.mpr outside)
      refine (coherent path names straight found).settle (fun waits => ?_) fun name waits => ?_
      · exact List.mem_filter.mpr ⟨waits, by rw [itself]; rfl⟩
      · exact List.mem_filter.mpr ⟨waits, by rw [inside name]; rfl⟩

/-- Entering a current listing keeps a cache coherent. -/
theorem Coherent.insert (coherent : Coherent tree waiting cache)
    (current : IsCurrent tree waiting path.components names) :
    Coherent tree waiting ⟨cache.listings.insert path names⟩ := by
  intro other listed straight found
  rw [cached?, PathMap.find?_insert] at found
  split at found
  · next same =>
      cases found
      rw [← same]
      exact current
  · exact coherent other listed straight found

/-- A path is found to be a directory exactly if it has a listing afterwards. -/
theorem explore_eq_contains (store : SourceStore) (depth : Nat) (path : SourcePath)
    (cache : DirectoryCache) :
    (explore store depth path cache).value.1 =
      (explore store depth path cache).value.2.listings.contains path := by
  cases depth with
  | zero => rfl
  | succ depth =>
      rw [explore]
      split
      · next known => exact known.symm
      · next unknown =>
          split
          · simp [record, PathMap.contains_eq_isSome, PathMap.find?_insert]
          · simpa using unknown

/-- The names that are marked as directories. -/
def marked (names : List String) (flags : List Bool) : List String :=
  (names.zip flags).filterMap fun (name, isDirectory) => if isDirectory then some name else none

theorem marked_cons (name : String) (names : List String) (flag : Bool) (flags : List Bool) :
    marked (name :: names) (flag :: flags) =
      if flag then name :: marked names flags else marked names flags := by
  cases flag <;> rfl

/-- Marking keeps the order. -/
theorem marked_sublist (names : List String) (flags : List Bool) :
    (marked names flags).Sublist names := by
  induction names generalizing flags with
  | nil => exact .slnil
  | cons name rest inductionHypothesis =>
      cases flags with
      | nil => exact List.nil_sublist _
      | cons flag others =>
          rw [marked_cons]
          split
          · exact (inductionHypothesis others).cons_cons name
          · exact (inductionHypothesis others).cons name

/-- What is told of every name with its mark is told of the marked ones, and every other name
is told to be unmarked. -/
theorem mem_marked {tells : String → Bool → Prop} {flags : List Bool}
    (all : List.Forall₂ tells names flags) {name : String} :
    (name ∈ marked names flags → tells name true) ∧
      (name ∈ names → name ∉ marked names flags → tells name false) := by
  induction all with
  | nil => exact ⟨nofun, nofun⟩
  | @cons first flag rest others told _ inductionHypothesis =>
      rw [marked_cons]
      cases flag with
      | false =>
          refine ⟨inductionHypothesis.1, fun member unmarked => ?_⟩
          rcases List.mem_cons.mp member with rfl | later
          · exact told
          · exact inductionHypothesis.2 later unmarked
      | true =>
          simp only [if_true, List.mem_cons, not_or]
          refine ⟨?_, fun member unmarked => ?_⟩
          · rintro (rfl | later)
            · exact told
            · exact inductionHypothesis.1 later
          · rcases member with rfl | later
            · exact absurd rfl unmarked.1
            · exact inductionHypothesis.2 later unmarked.2

/-- What the answer for a place says truly: a directory is found, and what is found is a
directory or waiting. -/
def IsJudged (tree : Tree) (waiting : List (List Component)) (place : List Component)
    (isDirectory : Bool) : Prop :=
  (place ∈ tree.directories → isDirectory = true) ∧
    (isDirectory = true → place ∈ tree.directories ∨ place ∈ waiting)

/-- Listing the entries that were found to be directories is current, even if some were found
to be so only because a change is waiting. -/
theorem isCurrent_marked {flags : List Bool} (isDirectory : path.components ∈ tree.directories)
    (all : List.Forall₂ (fun name => IsJudged tree waiting (path.components ++ [.name name]))
      (tree.entryNames path) flags) :
    IsCurrent tree waiting path.components (marked (tree.entryNames path) flags) where
  status := .inl isDirectory
  ascending := (tree.pairwise_entryNames path).sublist (marked_sublist _ _)
  listed name quiet := by
    constructor
    · intro listed
      have status := ((mem_marked all).1 listed).2 rfl
      exact status.resolve_right quiet
    · intro there
      by_contra unlisted
      have entry := Tree.mem_entryNames_of_isDirectory there
      exact Bool.false_ne_true (((mem_marked all).2 entry unlisted).1 there)

/-- A list in strictly ascending order is already sorted. -/
theorem mergeSort_eq_self (ascending : names.Pairwise (· < ·)) :
    (names.mergeSort fun left right => left ≤ right) = names := by
  refine List.mergeSort_of_pairwise (ascending.imp fun before => ?_)
  exact decide_eq_true (String.not_lt.mp fun after =>
    String.lt_irrefl _ (String.lt_trans before after))

/-- In a coherent cache only a directory is found, unless it has just gone. -/
theorem Coherent.status_of_found {store : SourceStore} {depth : Nat}
    (coherent : Coherent tree waiting (explore store depth path cache).value.2)
    (straight : path.IsStraight) (found : (explore store depth path cache).value.1 = true) :
    path.components ∈ tree.directories ∨ path.components ∈ waiting := by
  rw [explore_eq_contains, PathMap.contains_eq_isSome, Option.isSome_iff_exists] at found
  obtain ⟨listed, cached⟩ := found
  exact (coherent path listed straight cached).status

/-- Two lists in strictly ascending order with the same names are one list. -/
theorem eq_of_ascending {left right : List String} (leftAscending : left.Pairwise (· < ·))
    (rightAscending : right.Pairwise (· < ·)) (same : ∀ name, name ∈ left ↔ name ∈ right) :
    left = right :=
  have : Std.Irrefl (α := String) (· < ·) := ⟨String.lt_irrefl⟩
  have : Std.Antisymm (α := String) (· < ·) :=
    ⟨fun _ _ before after => absurd (String.lt_trans before after) (String.lt_irrefl _)⟩
  leftAscending.eq_of_mem_iff rightAscending same

end DirectoryCache

/-- While nothing is waiting, a current listing has exactly the subdirectories. -/
theorem IsCurrent.eq_subdirectories (current : IsCurrent tree [] path.components names)
    (written : tree.IsWritten) :
    names = (tree.entryNames path).filter fun name => tree.isDirectory (path.join ⟨name⟩) := by
  refine DirectoryCache.eq_of_ascending current.ascending
    ((tree.pairwise_entryNames path).sublist List.filter_sublist) fun name => ?_
  rw [current.listed name List.not_mem_nil, List.mem_filter, Tree.isDirectory_iff]
  constructor
  · intro there
    have entry := Tree.mem_entryNames_of_isDirectory there
    have segment := written.isSegment_of_mem_entryNames entry
    exact ⟨entry, by rwa [path.components_join_name segment]⟩
  · rintro ⟨entry, there⟩
    rwa [path.components_join_name (written.isSegment_of_mem_entryNames entry)] at there

namespace DirectoryCache

/-- Recording the entries that were found to be directories keeps a cache coherent. -/
theorem Coherent.record {flags : List Bool} (coherent : Coherent tree waiting cache)
    (isDirectory : path.components ∈ tree.directories)
    (all : List.Forall₂ (fun name => IsJudged tree waiting (path.components ++ [.name name]))
      (tree.entryNames path) flags) :
    Coherent tree waiting
      (DirectoryCache.record path (marked (tree.entryNames path) flags) cache).value.2 := by
  have current := isCurrent_marked isDirectory all
  have sorted := mergeSort_eq_self current.ascending
  simp only [DirectoryCache.record, Traced.value_bind, Traced.value_pure]
  rw [sorted]
  exact coherent.insert current

/-- Exploring to a depth finds every directory and keeps every cache coherent, as long as the
depth reaches below the nesting of the tree. -/
def FindsDirectories (tree : Tree) (waiting : List (List Component)) (depth : Nat) : Prop :=
  ∀ (path : SourcePath) (cache : DirectoryCache), Coherent tree waiting cache →
    path.IsStraight → tree.store.nesting < depth + path.components.length →
    (path.components ∈ tree.directories → (explore tree.store depth path cache).value.1 = true) ∧
      Coherent tree waiting (explore tree.store depth path cache).value.2

namespace FindsDirectories

variable {depth : Nat}

/-- What is found without being a directory has just gone. -/
theorem judges (finds : FindsDirectories tree waiting depth)
    (coherent : Coherent tree waiting cache) (straight : path.IsStraight)
    (deep : tree.store.nesting < depth + path.components.length) :
    IsJudged tree waiting path.components (explore tree.store depth path cache).value.1 ∧
      Coherent tree waiting (explore tree.store depth path cache).value.2 := by
  obtain ⟨found, after⟩ := finds path cache coherent straight deep
  exact ⟨⟨found, after.status_of_found straight⟩, after⟩

/-- The entries of a directory are judged one after the other, and the coherence of the cache
is what the walk over them keeps. -/
theorem judges_entries (finds : FindsDirectories tree waiting depth) (written : tree.IsWritten)
    (coherent : Coherent tree waiting cache) (straight : path.IsStraight)
    (deep : tree.store.nesting < depth + 1 + path.components.length) :
    let walk := (Traced.mapState (fun name => explore tree.store depth (path.combine ⟨name⟩))
      (tree.entryNames path) cache).value
    List.Forall₂ (fun name => IsJudged tree waiting (path.components ++ [.name name]))
        (tree.entryNames path) walk.1 ∧
      Coherent tree waiting walk.2 := by
  refine Traced.mapState_keeps _ (Coherent tree waiting)
    (fun name => IsJudged tree waiting (path.components ++ [.name name])) ?_ coherent
  intro name member state kept
  have segment := written.isSegment_of_mem_entryNames member
  have below := straight.components_combine segment
  have reaches : tree.store.nesting < depth + (path.combine ⟨name⟩).components.length := by
    rw [below, List.length_append, List.length_singleton]
    omega
  rw [← below]
  exact finds.judges kept (straight.combine segment) reaches

end FindsDirectories

theorem findsDirectories (written : tree.IsWritten) (depth : Nat) :
    FindsDirectories tree waiting depth := by
  induction depth with
  | zero =>
      intro path cache coherent straight deep
      refine ⟨fun isDirectory => ?_, coherent⟩
      have shallow := Tree.length_le_nesting isDirectory
      omega
  | succ depth inductionHypothesis =>
      intro path cache coherent straight deep
      rw [explore]
      split
      · exact ⟨fun _ => rfl, coherent⟩
      split
      · next isDirectory =>
          rw [Tree.store_isDirectory, List.contains_iff_mem] at isDirectory
          obtain ⟨all, explored⟩ :=
            inductionHypothesis.judges_entries written coherent straight deep
          exact ⟨fun _ => rfl, explored.record isDirectory all⟩
      · next noDirectory =>
          rw [Tree.store_isDirectory, List.contains_iff_mem] at noDirectory
          exact ⟨fun isDirectory => absurd isDirectory noDirectory, coherent⟩

/-- A question judges rightly and keeps a cache coherent. -/
theorem Coherent.directoryExists (written : tree.IsWritten)
    (coherent : Coherent tree waiting cache) (straight : path.IsStraight) :
    IsJudged tree waiting path.components
        (cache.directoryExists tree.store path).value.1 ∧
      Coherent tree waiting (cache.directoryExists tree.store path).value.2 :=
  (findsDirectories written _).judges coherent straight (by omega)

theorem Coherent.list (written : tree.IsWritten) (coherent : Coherent tree waiting cache)
    (straight : path.IsStraight) :
    Coherent tree waiting (DirectoryCache.list tree.store path cache).value.2 :=
  (coherent.directoryExists written straight).2

/-- While nothing is waiting, the answer for a directory is the store's. -/
theorem Coherent.directoryExists_eq (written : tree.IsWritten) (coherent : Coherent tree [] cache)
    (straight : path.IsStraight) :
    (cache.directoryExists tree.store path).value.1 = tree.isDirectory path := by
  obtain ⟨found, status⟩ := (coherent.directoryExists written straight).1
  rw [Bool.eq_iff_iff, Tree.isDirectory_iff]
  exact ⟨fun answer => (status answer).resolve_right List.not_mem_nil, found⟩

/-- While nothing is waiting, the subdirectories of a directory are the store's. -/
theorem Coherent.list_eq (written : tree.IsWritten) (coherent : Coherent tree [] cache)
    (straight : path.IsStraight) :
    (DirectoryCache.list tree.store path cache).value.1 =
      if tree.isDirectory path then
        (tree.entryNames path).filter fun name => tree.isDirectory (path.join ⟨name⟩)
      else [] := by
  have answer := coherent.directoryExists_eq written straight
  have after := (coherent.directoryExists written straight).2
  rw [DirectoryCache.list, Traced.value_bind, Traced.value_pure]
  rw [DirectoryCache.directoryExists, explore_eq_contains, ← DirectoryCache.directoryExists,
    PathMap.contains_eq_isSome] at answer
  rw [← answer]
  cases found : (cache.directoryExists tree.store path).value.2.cached? path with
  | none =>
      rw [cached?] at found
      rw [found]
      rfl
  | some names =>
      have current := after path names straight found
      rw [cached?] at found
      rw [found]
      exact current.eq_subdirectories written

end DirectoryCache

end ScriptAnalysis
