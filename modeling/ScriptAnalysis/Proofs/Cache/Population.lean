import ScriptAnalysis.Proofs.Cache.Unbounded
import ScriptAnalysis.Proofs.Store.Subtree

/-!
# Population of the directory cache

The first question that finds a directory fills an empty cache with the whole subtree of the
directory. What is listed on the way is what is new in the cache (`mem_listedPlaces_explore`), and
it is listed once (`nodup_listedPlaces_explore`). An explored cache is closed (`IsClosed`): with a
directory it holds the directories in it, so names lead from the first one to no directory that is
missing (`IsClosed.exists_contains`). Later questions about the subtree find there all that the
store knows of it, and list nothing (`askAll_eq_pure`).
-/

namespace ScriptAnalysis

namespace Event

/-- The place that the event lists, if it is the listing of a directory. -/
def listed? : Event → Option (List Component)
  | .listed path => some path.components
  | _ => none

/-- The places that were listed, the first one first. -/
def listedPlaces (events : List Event) : List (List Component) :=
  events.filterMap listed?

theorem listings_eq_length (events : List Event) :
    listings events = (listedPlaces events).length := by
  rw [listings, listedPlaces, List.length_filterMap_eq_countP]
  refine List.countP_congr fun event _ => ?_
  cases event <;> simp [isListing, listed?]

theorem mem_listedPlaces {events : List Event} {place : List Component} :
    place ∈ listedPlaces events ↔ ∃ path, .listed path ∈ events ∧ path.components = place := by
  rw [listedPlaces, List.mem_filterMap]
  constructor
  · rintro ⟨event, member, read⟩
    cases event <;> cases read
    exact ⟨_, member, rfl⟩
  · rintro ⟨path, member, rfl⟩
    exact ⟨_, member, rfl⟩

theorem count_listedPlaces (events : List Event) (path : SourcePath) :
    (listedPlaces events).count path.components = events.countP (isListingAt path) := by
  rw [listedPlaces, List.count_filterMap]
  refine List.countP_congr fun event _ => ?_
  cases event <;> simp [isListingAt, listed?]

end Event

namespace DirectoryCache

variable {store : SourceStore} {tree : Tree} {cache explored : DirectoryCache}
  {path place : SourcePath} {depth : Nat}

/-- Exploring forgets nothing. -/
theorem contains_explore (places : store.ListsPlaces) (depth : Nat) (path : SourcePath)
    (known : cache.listings.contains place = true) :
    (explore store depth path cache).value.2.listings.contains place = true := by
  refine (fills_explore places place depth path cache).eq_true ?_
  rw [known]
  exact Nat.succ_pos _

/-- Every directory that is an entry of something in the cache is in the cache as well. -/
def IsClosed (store : SourceStore) (cache : DirectoryCache) : Prop :=
  ∀ place, cache.listings.contains place = true → ∀ name ∈ store.entryNames place,
    store.isDirectory (place.combine ⟨name⟩) = true →
      cache.listings.contains (place.combine ⟨name⟩) = true

/-- Exploring the entries of a directory enters those that are directories. -/
theorem contains_exploreEntries (places : store.ListsPlaces)
    (deep : Suffices store (depth + 1) path) (cache : DirectoryCache) :
    ∀ name ∈ store.entryNames path, store.isDirectory (path.combine ⟨name⟩) = true →
      (exploreEntries store depth path cache).value.2.listings.contains (path.combine ⟨name⟩) =
        true := by
  refine Traced.mapState_marks (fun name (state : DirectoryCache) =>
    store.isDirectory (path.combine ⟨name⟩) = true →
      state.listings.contains (path.combine ⟨name⟩) = true) ?_ ?_
  · intro name member state isDirectory
    obtain ⟨found, -⟩ :=
      findsKnown places depth (path.combine ⟨name⟩) state (deep.entry (places.isSegment member))
    rw [← explore_eq_contains, found, knows, isDirectory, Bool.or_true]
  · intro name other state held isDirectory
    exact contains_explore places depth _ (held isDirectory)

theorem isClosed_explore (places : store.ListsPlaces) (depth : Nat) (path : SourcePath)
    (closed : IsClosed store cache) (deep : Suffices store depth path) :
    IsClosed store (explore store depth path cache).value.2 := by
  induction depth generalizing path cache with
  | zero => exact closed
  | succ depth inductionHypothesis =>
      rcases explore_cases store depth path cache with near | ⟨unknown, isDirectory⟩
      · rw [near]
        exact closed
      · have walked : IsClosed store (exploreEntries store depth path cache).value.2 :=
          (Traced.mapState_keeps _ (IsClosed store) (fun _ _ => True)
            (fun name member state kept => ⟨trivial, inductionHypothesis _ kept
              (deep.entry (places.isSegment member))⟩) closed).2
        have entered := contains_exploreEntries places deep cache
        rw [explore_of_unknown depth unknown isDirectory]
        intro place known name member isDirectory
        rw [contains_insert, Bool.or_eq_true, beq_iff_eq] at known ⊢
        refine .inr ?_
        rcases known with same | before
        · rw [← places.entryNames_congr same] at member
          rw [← SourcePath.combine_congr same (places.isSegment member)] at isDirectory ⊢
          exact entered name member isDirectory
        · exact walked place before name member isDirectory

/-- The place is entered on the way only if the store lists it. -/
def EntersListed (place : SourcePath) (before : DirectoryCache) (events : List Event)
    (after : DirectoryCache) : Prop :=
  after.listings.contains place = true →
    before.listings.contains place = true ∨ place.components ∈ Event.listedPlaces events

theorem EntersListed.append {first between last : DirectoryCache} {earlier later : List Event}
    (before : EntersListed place first earlier between)
    (after : EntersListed place between later last) :
    EntersListed place first (earlier ++ later) last := by
  intro entered
  rw [Event.listedPlaces, List.filterMap_append, List.mem_append]
  rcases after entered with between | listed
  · exact (before between).imp_right .inl
  · exact .inr (.inr listed)

theorem entersListed_explore (place : SourcePath) (depth : Nat) (path : SourcePath)
    (cache : DirectoryCache) :
    EntersListed place cache (explore store depth path cache).events
      (explore store depth path cache).value.2 := by
  induction depth generalizing path cache with
  | zero => exact .inl
  | succ depth inductionHypothesis =>
      rcases explore_cases store depth path cache with near | ⟨unknown, isDirectory⟩
      · rw [near]
        exact .inl
      · have walk : EntersListed place cache (exploreEntries store depth path cache).events
            (exploreEntries store depth path cache).value.2 :=
          Traced.mapState_composes (EntersListed place) (fun _ => .inl) .append
            (fun name state => inductionHypothesis (path.combine ⟨name⟩) state) _ cache
        rw [explore_of_unknown depth unknown isDirectory]
        intro entered
        rw [contains_insert, Bool.or_eq_true, beq_iff_eq] at entered
        rcases entered with same | walked
        · exact .inr (Event.mem_listedPlaces.mpr ⟨path, List.mem_cons_self, same⟩)
        · refine (walk walked).imp_right fun listed => ?_
          obtain ⟨other, member, same⟩ := Event.mem_listedPlaces.mp listed
          refine Event.mem_listedPlaces.mpr ⟨other, ?_, same⟩
          exact List.mem_append_right _ (List.mem_append_left _ member)

/-- The store lists exactly what is new in the cache. -/
theorem mem_listedPlaces_explore (places : store.ListsPlaces) (depth : Nat) (path : SourcePath)
    (unknown : cache.listings.contains place = false) :
    place.components ∈ Event.listedPlaces (explore store depth path cache).events ↔
      (explore store depth path cache).value.2.listings.contains place = true := by
  constructor
  · intro listed
    have counted := List.count_pos_iff.mpr listed
    rw [Event.count_listedPlaces] at counted
    exact (fills_explore places place depth path cache).eq_true (Nat.add_pos_left counted _)
  · intro entered
    exact (entersListed_explore place depth path cache entered).resolve_left
      (by rw [unknown]; exact Bool.false_ne_true)

/-- The store lists no place twice. -/
theorem nodup_listedPlaces_explore (places : store.ListsPlaces) (depth : Nat) (path : SourcePath)
    (cache : DirectoryCache) :
    (Event.listedPlaces (explore store depth path cache).events).Nodup := by
  refine List.nodup_iff_count_le_one.mpr fun place => ?_
  by_cases member : place ∈ Event.listedPlaces (explore store depth path cache).events
  · obtain ⟨listed, -, rfl⟩ := Event.mem_listedPlaces.mp member
    rw [Event.count_listedPlaces]
    exact (fills_explore places listed depth path cache).countP_le_one
  · rw [List.count_eq_zero_of_not_mem member]
    exact Nat.zero_le 1

/-- At first the store decides what is a directory. -/
theorem directoryExists_empty (places : store.ListsPlaces) (path : SourcePath) :
    (empty.directoryExists store path).value.1 = store.isDirectory path := by
  rw [(directoryExists_eq places path empty).1, isSome_listing?]
  exact Bool.false_or _

/-- What is cached of what the empty cache owes is what the store says of a directory. -/
theorem SameListings.cached?_eq (same : SameListings store explored empty)
    (known : explored.listings.contains place = true) :
    store.isDirectory place = true ∧
      explored.cached? place = some (empty.freshListing store place) := by
  rw [contains_eq_isSome_cached?, Option.isSome_iff_exists] at known
  obtain ⟨names, cached⟩ := known
  have owed := same place
  rw [listing?, cached, Option.some_or, listing?, cached?, empty, PathMap.find?_empty,
    Option.none_or, ← empty] at owed
  split at owed
  · next isDirectory => exact ⟨isDirectory, cached.trans owed⟩
  · cases owed

/-- What the empty cache owes to a normal place are the directories in it. -/
theorem freshListing_empty (written : tree.IsWritten)
    (normal : SourcePath.normalComponents place.components = place.components) :
    empty.freshListing tree.store place =
      (tree.entryNames place).filter fun name => tree.isDirectory (place.join ⟨name⟩) := by
  have alike : ∀ name ∈ tree.entryNames place, empty.knows tree.store (place.combine ⟨name⟩) =
      tree.isDirectory (place.join ⟨name⟩) := by
    intro name member
    have segment := written.isSegment_of_mem_entryNames member
    show tree.directories.contains _ = tree.directories.contains _
    rw [place.components_combine_name segment, normal, place.components_join_name segment]
  rw [freshListing, Tree.store_entryNames, List.filter_congr alike]
  exact mergeSort_eq_self ((tree.pairwise_entryNames place).sublist List.filter_sublist)

/-- A closed cache that holds a normal path holds every directory to which names lead from
there. -/
theorem IsClosed.exists_contains (closed : IsClosed tree.store cache) (written : tree.IsWritten)
    (rooted : tree.IsRooted)
    (normal : SourcePath.normalComponents path.components = path.components)
    (top : path.components ∈ tree.directories) (known : cache.listings.contains path = true)
    (names : List String) (member : path.components ++ names.map .name ∈ tree.directories) :
    ∃ place : SourcePath, place.components = path.components ++ names.map .name ∧
      cache.listings.contains place = true := by
  induction names using List.reverseRecOn with
  | nil => exact ⟨path, by simp, known⟩
  | append_singleton names name inductionHypothesis =>
      obtain ⟨above, shape, entered⟩ :=
        inductionHypothesis (rooted.mem_directories_of_concat top member)
      rw [List.map_append, ← List.append_assoc, ← shape] at member
      have entry := Tree.mem_entryNames_of_isDirectory member
      have segment := written.isSegment_of_mem_entryNames entry
      have inside : (above.combine ⟨name⟩).components = above.components ++ [.name name] := by
        rw [above.components_combine_name segment, shape,
          SourcePath.normalComponents_append_names, normal]
      refine ⟨above.combine ⟨name⟩, ?_, closed above entered name entry ?_⟩
      · rw [inside, shape, List.map_append, List.append_assoc]
        rfl
      · rw [Tree.store_isDirectory, inside]
        exact List.contains_iff_mem.mpr member

/-- A question about one directory. -/
inductive Question where
  | directoryExists (path : SourcePath)
  | list (path : SourcePath)
  deriving DecidableEq, Repr

namespace Question

/-- The path that the question is about. -/
def about : Question → SourcePath
  | .directoryExists path => path
  | .list path => path

/-- Ask the question; only what it does to the cache matters. -/
def ask (store : SourceStore) (cache : DirectoryCache) : Question → Traced DirectoryCache
  | .directoryExists path => do
      let (_, next) ← cache.directoryExists store path
      pure next
  | .list path => do
      let (_, next) ← DirectoryCache.list store path cache
      pure next

end Question

/-- Ask questions one after the other. -/
def askAll (store : SourceStore) : List Question → DirectoryCache → Traced DirectoryCache
  | [], cache => pure cache
  | question :: rest, cache => do
      let next ← question.ask store cache
      askAll store rest next

/-- The store does not come into a question whose path it does not know better than the cache. -/
theorem Question.ask_eq_pure (question : Question)
    (known : store.isDirectory question.about = true →
      cache.listings.contains question.about = true) :
    question.ask store cache = pure cache := by
  have near : cache.directoryExists store question.about =
      pure (cache.knows store question.about, cache) := by
    rcases explore_cases store _ question.about cache with near | ⟨unknown, isDirectory⟩
    · exact near
    · cases unknown.symm.trans (known isDirectory)
  cases question with
  | directoryExists path =>
      rw [ask, show cache.directoryExists store path = _ from near]
      rfl
  | list path =>
      rw [ask, DirectoryCache.list, show cache.directoryExists store path = _ from near]
      rfl

theorem askAll_eq_pure {questions : List Question}
    (known : ∀ question ∈ questions, store.isDirectory question.about = true →
      cache.listings.contains question.about = true) :
    askAll store questions cache = pure cache := by
  induction questions with
  | nil => rfl
  | cons question rest inductionHypothesis =>
      rw [askAll, question.ask_eq_pure (known question List.mem_cons_self)]
      exact inductionHypothesis fun other later => known other (List.mem_cons_of_mem _ later)

/-- A question that found a directory has entered the directories of its subtree. -/
theorem exists_contains_of_mem_subtree (written : tree.IsWritten) (rooted : tree.IsRooted)
    (normal : SourcePath.normalComponents path.components = path.components)
    (found : (empty.directoryExists tree.store path).value.1 = true) {directory : List Component}
    (inside : directory ∈ tree.subtree path.components) :
    ∃ place : SourcePath, place.components = directory ∧
      (empty.directoryExists tree.store path).value.2.listings.contains place = true := by
  obtain ⟨isDirectory, names, rfl⟩ := Tree.mem_subtree.mp inside
  have closed : IsClosed tree.store (empty.directoryExists tree.store path).value.2 :=
    isClosed_explore written.listsPlaces _ path (fun _ known => by cases known)
      (.inl (Nat.lt_succ_self _))
  have itself : (empty.directoryExists tree.store path).value.2.listings.contains path = true :=
    (explore_eq_contains _ _ _ _).symm.trans found
  have same := (directoryExists_eq written.listsPlaces path empty).2
  have top := List.contains_iff_mem.mp (same.cached?_eq itself).1
  exact closed.exists_contains written rooted normal top itself names isDirectory

/-- A question that found a directory has entered its subtree and nothing else. -/
theorem contains_directoryExists_iff (written : tree.IsWritten) (rooted : tree.IsRooted)
    (normal : SourcePath.normalComponents path.components = path.components)
    (found : (empty.directoryExists tree.store path).value.1 = true) (place : SourcePath) :
    (empty.directoryExists tree.store path).value.2.listings.contains place = true ↔
      place.components ∈ tree.subtree path.components := by
  have same := (directoryExists_eq written.listsPlaces path empty).2
  constructor
  · intro known
    refine Tree.mem_subtree.mpr ⟨List.contains_iff_mem.mp (same.cached?_eq known).1, ?_⟩
    rcases entersBelow written.listsPlaces _ path empty place known with before | equal | below
    · cases before
    · exact ⟨[], by rw [← equal, List.map_nil, List.append_nil]⟩
    · obtain ⟨name, names, shape⟩ := below
      exact ⟨name :: names, by rw [shape, normal, List.map_cons]⟩
  · intro inside
    obtain ⟨entered, equal, known⟩ :=
      exists_contains_of_mem_subtree written rooted normal found inside
    rwa [← contains_congr _ equal]

/-- A question that found a directory has listed each directory of its subtree once. -/
theorem listings_directoryExists (written : tree.IsWritten) (rooted : tree.IsRooted)
    (normal : SourcePath.normalComponents path.components = path.components)
    (found : (empty.directoryExists tree.store path).value.1 = true) :
    Event.listings (empty.directoryExists tree.store path).events =
      (tree.subtree path.components).card := by
  have places := written.listsPlaces
  have entered : ∀ place : SourcePath,
      place.components ∈ Event.listedPlaces (empty.directoryExists tree.store path).events ↔
        place.components ∈ tree.subtree path.components := fun place =>
    (mem_listedPlaces_explore places _ path rfl).trans
      (contains_directoryExists_iff written rooted normal found place)
  have once : (Event.listedPlaces (empty.directoryExists tree.store path).events).Nodup :=
    nodup_listedPlaces_explore places _ path empty
  rw [Event.listings_eq_length, ← List.toFinset_card_of_nodup once]
  refine congrArg Finset.card (Finset.ext fun directory => ?_)
  rw [List.mem_toFinset]
  constructor
  · intro listed
    obtain ⟨place, -, rfl⟩ := Event.mem_listedPlaces.mp listed
    exact (entered place).mp listed
  · intro inside
    obtain ⟨place, rfl, -⟩ := exists_contains_of_mem_subtree written rooted normal found inside
    exact (entered place).mpr inside

/-- The first question for a directory ends. If the path is none, nothing is cached. If it is one,
then each directory of its subtree is listed once and cached with its subdirectories, nothing else
is cached, and no later question about the subtree lists a directory or changes the cache. Of a
path that is not cached the store is still asked whether it is a directory. -/
theorem directoryExists_populates_subtree (mutations : List Mutation) (path : SourcePath)
    (normal : path.normalize.Same path) :
    let tree := Tree.built mutations
    let asked := empty.directoryExists tree.store path
    (∀ outcome, Explores tree.store path empty outcome ↔ outcome = asked) ∧
    (asked.value.1 = false → asked.value.2 = empty) ∧
    (asked.value.1 = true →
      (∀ place, asked.value.2.cached? place =
        if place.components ∈ tree.subtree path.components then
          some ((tree.entryNames place).filter fun name => tree.isDirectory (place.join ⟨name⟩))
        else none) ∧
      Event.listings asked.events = (tree.subtree path.components).card ∧
      ∀ questions : List Question,
        (∀ question ∈ questions,
          Component.NamesLead path.components question.about.components) →
        askAll tree.store questions asked.value.2 = pure asked.value.2) := by
  intro tree asked
  have written := Tree.isWritten_built mutations
  have rooted := Tree.isRooted_built mutations
  have places := written.listsPlaces
  have normal : SourcePath.normalComponents path.components = path.components :=
    path.components_normalize.symm.trans normal
  refine ⟨fun outcome => explores_iff places, fun absent => ?_,
    fun found => ⟨fun place => ?_, ?_, ?_⟩⟩
  · rcases explore_cases tree.store _ path empty with near | ⟨-, isDirectory⟩
    · exact congrArg (fun outcome => outcome.value.2) near
    · cases absent.symm.trans ((directoryExists_empty places path).trans isDirectory)
  · have entered := contains_directoryExists_iff written rooted normal found place
    split
    · next inside =>
        have cached := (directoryExists_eq places path empty).2.cached?_eq (entered.mpr inside)
        refine cached.2.trans (congrArg some (freshListing_empty written ?_))
        obtain ⟨-, names, shape⟩ := Tree.mem_subtree.mp inside
        rw [shape, SourcePath.normalComponents_append_names, normal]
    · next outside =>
        rw [← entered, contains_eq_isSome_cached?, Option.not_isSome_iff_eq_none] at outside
        exact outside
  · exact listings_directoryExists written rooted normal found
  · intro questions below
    refine askAll_eq_pure fun question member isDirectory => ?_
    refine (contains_directoryExists_iff written rooted normal found _).mpr ?_
    exact Tree.mem_subtree.mpr ⟨List.contains_iff_mem.mp isDirectory, below question member⟩

/-- Four directories below a relative path with a separator behind it. A removed directory is not
found later, and one whose name merely begins alike is left out. -/
theorem directoryExists_populates_subtree_relative :
    let store := (Tree.built [.writeFile ⟨"../work/src/util/strings.ts"⟩ "",
      .createDirectory ⟨"../work/types/old"⟩, .removeDirectory ⟨"../work/types/old"⟩,
      .createDirectory ⟨"../works"⟩]).store
    let path : SourcePath := ⟨"../work/"⟩
    path.normalize.Same path ∧ (empty.directoryExists store path).value.1 = true ∧
      Event.listings (empty.directoryExists store path).events = 4 ∧
      (empty.directoryExists store path).value.2.cached? ⟨"../work/src"⟩ = some ["util"] ∧
      (empty.directoryExists store path).value.2.cached? ⟨"../works"⟩ = none ∧
      askAll store [.list ⟨"../work/src"⟩, .directoryExists ⟨"../work/types/old"⟩]
        (empty.directoryExists store path).value.2 =
          pure (empty.directoryExists store path).value.2 := by
  intro store path
  have normal : path.normalize.Same path := by decide
  have places : store.ListsPlaces := (Tree.isWritten_built _).listsPlaces
  have isDirectory : store.isDirectory path = true := by decide
  have found := (directoryExists_empty places path).trans isDirectory
  obtain ⟨cached, counted, later⟩ :=
    (directoryExists_populates_subtree _ path normal).2.2 found
  refine ⟨normal, found, counted.trans ?_, (cached _).trans ?_, (cached _).trans ?_, later _ ?_⟩
  · decide
  · decide
  · decide
  · decide

end DirectoryCache

end ScriptAnalysis
