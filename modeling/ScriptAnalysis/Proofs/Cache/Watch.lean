import ScriptAnalysis.Cache.Source
import ScriptAnalysis.Proofs.Cache.Listings

/-!
# A source cache beside a changing tree

A `Watch` is a source cache, the tree it reads from and the changed directories whose
announcement is still owed to it. Mutations, questions and announcements may come in any
order. Whenever nothing is owed, every answer about directories is the tree's own, as
if nothing had been remembered.
-/

namespace ScriptAnalysis

/-- What happens to a source cache and the tree it reads from. -/
inductive WatchAction where
  | mutate (mutation : Mutation)
  | askExists (path : SourcePath)
  | askSubdirectories (path : SourcePath)
  | announce (directory : SourcePath)

/-- The path that an action asks about. -/
def WatchAction.asked? : WatchAction → Option SourcePath
  | .askExists path => some path
  | .askSubdirectories path => some path
  | .mutate _ => none
  | .announce _ => none

/-- A cache, the tree it reads from, and the places that became or ceased to be a directory
since they were last announced. -/
structure Watch where
  tree : Tree
  cache : SourceCache
  waiting : List (List Component)

namespace Watch

variable {watch : Watch}

/-- Begin with an empty cache over a tree that mutations have built. -/
def start (mutations : List Mutation) : Watch :=
  ⟨Tree.built mutations, SourceCache.empty, []⟩

/-- One action. A mutation happens behind the back of the cache. -/
def step (watch : Watch) : WatchAction → Watch
  | .mutate mutation =>
      let after := watch.tree.mutate mutation
      ⟨after, watch.cache, watch.waiting ++ Tree.changedDirectories watch.tree after⟩
  | .askExists path =>
      { watch with cache := (watch.cache.directoryExists watch.tree.store path).value.2 }
  | .askSubdirectories path =>
      { watch with cache := (watch.cache.subdirectories watch.tree.store path).value.2 }
  | .announce directory =>
      { watch with
        cache := (watch.cache.directoryChanged watch.tree.store directory).value.2
        waiting := watch.waiting.filter fun place =>
          !DirectoryCache.announces directory place }

/-- Actions in their order. -/
def run (watch : Watch) (actions : List WatchAction) : Watch :=
  actions.foldl step watch

/-- The tree is written, and the listings are behind it only where something is waiting. -/
structure IsCoherent (watch : Watch) : Prop where
  written : watch.tree.IsWritten
  listings : watch.cache.directories.Coherent watch.tree watch.waiting

theorem isCoherent_start (mutations : List Mutation) : (start mutations).IsCoherent where
  written := Tree.isWritten_built mutations
  listings := DirectoryCache.coherent_empty

theorem IsCoherent.step (coherent : watch.IsCoherent) {action : WatchAction}
    (asked : ∀ path ∈ action.asked?, path.IsStraight) : (watch.step action).IsCoherent := by
  obtain ⟨written, listings⟩ := coherent
  cases action with
  | mutate mutation => exact ⟨written.mutate mutation, listings.mutate _⟩
  | askExists path =>
      exact ⟨written, (listings.directoryExists written (asked path rfl)).2⟩
  | askSubdirectories path => exact ⟨written, listings.list written (asked path rfl)⟩
  | announce directory => exact ⟨written, listings.invalidateUnder directory⟩

theorem IsCoherent.run {actions : List WatchAction} (coherent : watch.IsCoherent)
    (asked : ∀ action ∈ actions, ∀ path ∈ action.asked?, path.IsStraight) :
    (watch.run actions).IsCoherent := by
  induction actions generalizing watch with
  | nil => exact coherent
  | cons first rest inductionHypothesis =>
      exact inductionHypothesis (coherent.step (asked first List.mem_cons_self))
        fun action later => asked action (List.mem_cons_of_mem _ later)

/-- Whenever no change is waiting to be announced, the cache answers every question about
directories as the tree does, and as a cache that remembers nothing. -/
theorem answers_eq_tree (mutations : List Mutation) (actions : List WatchAction)
    (asked : ∀ action ∈ actions, ∀ path ∈ action.asked?, path.IsStraight)
    (settled : ((start mutations).run actions).waiting = [])
    (path : SourcePath) (straight : path.IsStraight) :
    let watch := (start mutations).run actions
    let store := watch.tree.store
    let subdirectories := (watch.cache.subdirectories store path).value.1
    (watch.cache.directoryExists store path).value.1 = store.isDirectory path ∧
      subdirectories =
        (if store.isDirectory path then
          (store.entryNames path).filter fun name => store.isDirectory (path.join ⟨name⟩)
        else []) ∧
      subdirectories.Pairwise (· < ·) ∧
      (watch.cache.directoryExists store path).value.1 =
        (SourceCache.empty.directoryExists store path).value.1 ∧
      subdirectories = (SourceCache.empty.subdirectories store path).value.1 := by
  intro watch store subdirectories
  obtain ⟨written, listings⟩ : watch.IsCoherent := (isCoherent_start mutations).run asked
  rw [show watch.waiting = [] from settled] at listings
  have fresh : SourceCache.empty.directories.Coherent watch.tree [] :=
    DirectoryCache.coherent_empty
  have found := listings.directoryExists_eq written straight
  have listed := listings.list_eq written straight
  refine ⟨found, listed, ?_, ?_, ?_⟩
  · rw [show subdirectories = _ from listed]
    split
    · exact (watch.tree.pairwise_entryNames path).sublist List.filter_sublist
    · exact .nil
  · exact found.trans (fresh.directoryExists_eq written straight).symm
  · exact listed.trans (fresh.list_eq written straight).symm

/-- A file takes the place of a directory before its parent is announced, and the listing
that is made meanwhile does not outlive the announcement. -/
theorem answers_eq_tree_replaced_directory :
    let watch := (start [.createDirectory ⟨"/p/a"⟩]).run
      [.askSubdirectories ⟨"/p"⟩, .mutate (.removeDirectory ⟨"/p/a"⟩),
        .mutate (.writeFile ⟨"/p/a"⟩ "let x = 1;"), .announce ⟨"/p/a"⟩,
        .askSubdirectories ⟨"/p"⟩, .announce ⟨"/p"⟩]
    (watch.cache.directoryExists watch.tree.store ⟨"/p"⟩).value.1 = true ∧
      (watch.cache.subdirectories watch.tree.store ⟨"/p"⟩).value.1 = [] := by
  have straight : (SourcePath.mk "/p").IsStraight := ⟨["p"], by decide⟩
  obtain ⟨found, listed, _⟩ := answers_eq_tree [.createDirectory ⟨"/p/a"⟩]
    [.askSubdirectories ⟨"/p"⟩, .mutate (.removeDirectory ⟨"/p/a"⟩),
      .mutate (.writeFile ⟨"/p/a"⟩ "let x = 1;"), .announce ⟨"/p/a"⟩,
      .askSubdirectories ⟨"/p"⟩, .announce ⟨"/p"⟩]
    (by simpa [WatchAction.asked?] using straight) (by decide +kernel) ⟨"/p"⟩ straight
  exact ⟨found.trans (by decide +kernel), listed.trans (by decide +kernel)⟩

end Watch

end ScriptAnalysis
