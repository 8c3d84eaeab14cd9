import ScriptAnalysis.Proofs.Cache.Listings
import ScriptAnalysis.Proofs.Path.Route

/-!
# Exploring from any cache

A cache owes every directory a listing (`listing?`): the one that is cached, however stale, or
else the entries of the directory that count as directories themselves. Exploring enters what is
owed, which changes no listing that is owed anywhere else (`SameListings`), so questions may come
in any order. A listing by the store enters a directory that was not in the cache, and what lies
below it leads never back to it, so no directory is listed twice (`fills_explore`).
-/

namespace ScriptAnalysis

namespace Event

/-- Whether the event is the listing of the place. -/
def isListingAt (place : SourcePath) : Event → Bool
  | .listed path => path.components == place.components
  | _ => false

end Event

/-- What the store says of directories depends on their places only. What it lists are names, and
its nesting bounds the normal paths of directories. -/
structure SourceStore.ListsPlaces (store : SourceStore) : Prop where
  isDirectory_congr : ∀ {left right : SourcePath}, left.components = right.components →
    store.isDirectory left = store.isDirectory right
  entryNames_congr : ∀ {left right : SourcePath}, left.components = right.components →
    store.entryNames left = store.entryNames right
  isSegment : ∀ {path : SourcePath} {name : String}, name ∈ store.entryNames path →
    (Component.name name).IsSegment
  length_le : ∀ {path : SourcePath}, path.normalize = path → store.isDirectory path = true →
    path.components.length ≤ store.nesting

theorem Tree.IsWritten.listsPlaces {tree : Tree} (written : tree.IsWritten) :
    tree.store.ListsPlaces where
  isDirectory_congr same := by rw [store_isDirectory, store_isDirectory, same]
  entryNames_congr same := by rw [store_entryNames, store_entryNames, entryNames, same, entryNames]
  isSegment member := written.isSegment_of_mem_entryNames member
  length_le _ isDirectory := length_le_nesting (isDirectory_iff.mp isDirectory)

namespace SourcePath

variable {path place directory other : SourcePath} {name : String}

theorem combine_congr (same : directory.components = other.components)
    (segment : (Component.name name).IsSegment) :
    directory.combine ⟨name⟩ = other.combine ⟨name⟩ := by
  refine (isPlain_combine _ _).eq_of_components (isPlain_combine _ _) ?_
  rw [components_combine_name _ segment, components_combine_name _ segment, same]

theorem normalComponents_of_normal (normal : path.normalize = path) :
    normalComponents path.components = path.components := by
  rw [← components_normalize, normal]

/-- The place lies properly below the one that the path is when normalised. -/
def LeadsDownTo (path place : SourcePath) : Prop :=
  ∃ (name : String) (names : List String), place.components =
    normalComponents path.components ++ .name name :: names.map .name

/-- No path leads down to itself. -/
theorem not_leadsDownTo_self (path : SourcePath) : ¬ path.LeadsDownTo path := by
  rintro ⟨name, names, shape⟩
  -- Normalising applies the names that stand behind, so it would make the path longer.
  have whole : normalComponents path.components =
      normalComponents path.components ++ (name :: names).map .name := by
    conv_lhs => rw [shape, ← List.map_cons, normalComponents_append_names,
      ← components_normalize, normalComponents_of_normal path.normalize_normalize,
      components_normalize]
  have lengths := congrArg List.length whole
  simp at lengths

theorem leadsDownTo_of_components (segment : (Component.name name).IsSegment)
    (same : place.components = (path.combine ⟨name⟩).components) : path.LeadsDownTo place :=
  ⟨name, [], same.trans (path.components_combine_name segment)⟩

theorem LeadsDownTo.of_combine (segment : (Component.name name).IsSegment)
    (below : (path.combine ⟨name⟩).LeadsDownTo place) : path.LeadsDownTo place := by
  obtain ⟨first, names, shape⟩ := below
  refine ⟨name, first :: names, ?_⟩
  rw [shape, normalComponents_of_normal (path.normalize_of_combine ⟨name⟩),
    path.components_combine_name segment]
  simp

end SourcePath

namespace DirectoryCache

variable {store : SourceStore} {cache explored : DirectoryCache} {path place directory : SourcePath}
  {names : List String} {depth : Nat}

/-- Whether the path counts as a directory: it has a listing, or the store says that it is one. -/
def knows (store : SourceStore) (cache : DirectoryCache) (path : SourcePath) : Bool :=
  cache.listings.contains path || store.isDirectory path

/-- The entries of a directory that count as directories, in ascending order. -/
def freshListing (store : SourceStore) (cache : DirectoryCache) (path : SourcePath) :
    List String :=
  ((store.entryNames path).filter fun name =>
    cache.knows store (path.combine ⟨name⟩)).mergeSort fun left right => left ≤ right

/-- The listing that is owed to a path: the cached one, or a fresh one if it is a directory. -/
def listing? (store : SourceStore) (cache : DirectoryCache) (path : SourcePath) :
    Option (List String) :=
  (cache.cached? path).or
    (if store.isDirectory path then some (cache.freshListing store path) else none)

/-- Both caches owe the same listings. -/
def SameListings (store : SourceStore) (left right : DirectoryCache) : Prop :=
  ∀ path, left.listing? store path = right.listing? store path

theorem contains_eq_isSome_cached? (cache : DirectoryCache) (path : SourcePath) :
    cache.listings.contains path = (cache.cached? path).isSome :=
  PathMap.contains_eq_isSome _ _

theorem contains_congr (cache : DirectoryCache) (same : path.components = place.components) :
    cache.listings.contains path = cache.listings.contains place := by
  rw [PathMap.contains, PathMap.contains, same]

/-- A listing is owed exactly to what counts as a directory. -/
theorem isSome_listing? (store : SourceStore) (cache : DirectoryCache) (path : SourcePath) :
    (cache.listing? store path).isSome = cache.knows store path := by
  rw [listing?, knows, contains_eq_isSome_cached?, Option.isSome_or]
  cases store.isDirectory path <;> rfl

theorem SameListings.knows_eq (same : SameListings store cache explored) (path : SourcePath) :
    cache.knows store path = explored.knows store path := by
  rw [← isSome_listing?, ← isSome_listing?, same path]

theorem listing?_of_unknown (unknown : cache.listings.contains path = false)
    (isDirectory : store.isDirectory path = true) :
    cache.listing? store path = some (cache.freshListing store path) := by
  rw [contains_eq_isSome_cached?, Option.isSome_eq_false_iff, Option.isNone_iff_eq_none] at unknown
  rw [listing?, unknown, if_pos isDirectory, Option.none_or]

theorem freshListing_congr (places : store.ListsPlaces)
    (same : path.components = place.components)
    (alike : ∀ name ∈ store.entryNames place, cache.knows store (place.combine ⟨name⟩) =
      explored.knows store (place.combine ⟨name⟩)) :
    cache.freshListing store path = explored.freshListing store place := by
  rw [freshListing, freshListing, places.entryNames_congr same]
  refine congrArg (List.mergeSort · _) (List.filter_congr fun name member => ?_)
  rw [SourcePath.combine_congr same (places.isSegment member)]
  exact alike name member

theorem listing?_congr (places : store.ListsPlaces) (cache : DirectoryCache)
    (same : path.components = place.components) :
    cache.listing? store path = cache.listing? store place := by
  rw [listing?, listing?, cached?, cached?, PathMap.find?_congr _ same,
    places.isDirectory_congr same, freshListing_congr places same fun _ _ => rfl]

/-- Entering the listing that is owed to a directory leaves all that is owed as it was. -/
theorem sameListings_insert (places : store.ListsPlaces)
    (isDirectory : store.isDirectory directory = true)
    (owed : cache.listing? store directory = some names) :
    SameListings store ⟨cache.listings.insert directory names⟩ cache := by
  have alike : ∀ path, knows store ⟨cache.listings.insert directory names⟩ path =
      cache.knows store path := by
    intro path
    rw [knows, knows, PathMap.contains_eq_isSome, PathMap.find?_insert, PathMap.contains_eq_isSome]
    split
    · next same => simp [← places.isDirectory_congr same, isDirectory]
    · rfl
  intro path
  rw [listing?, cached?, PathMap.find?_insert]
  split
  · next same => rw [Option.some_or, ← owed, listing?_congr places cache same]
  · rw [freshListing_congr places rfl fun name _ => alike _]
    rfl

/-- Marking every name by a test keeps the names that pass it. -/
theorem marked_eq_filter {test : String → Bool} {flags : List Bool}
    (all : List.Forall₂ (fun name flag => flag = test name) names flags) :
    marked names flags = names.filter test := by
  induction all with
  | nil => rfl
  | cons told _ inductionHypothesis =>
      rw [marked_cons, told, List.filter_cons, inductionHypothesis]

/-- The depth suffices for everything below the path: names below a normal path make it longer, and
no directory is longer than the nesting of the store. -/
def Suffices (store : SourceStore) (depth : Nat) (path : SourcePath) : Prop :=
  store.nesting + 1 < depth ∨
    path.normalize = path ∧ store.nesting + 1 < depth + path.components.length

theorem Suffices.entry (deep : Suffices store (depth + 1) path) {name : String}
    (segment : (Component.name name).IsSegment) : Suffices store depth (path.combine ⟨name⟩) := by
  refine .inr ⟨SourcePath.normalize_of_combine _ _, ?_⟩
  rw [path.components_combine_name segment, List.length_append, List.length_singleton]
  rcases deep with deep | ⟨normal, deep⟩
  · omega
  · rw [SourcePath.normalComponents_of_normal normal]
    omega

/-- Where no depth is needed there is no directory. -/
theorem Suffices.isDirectory_eq_false (deep : Suffices store 0 path)
    (places : store.ListsPlaces) : store.isDirectory path = false := by
  rw [← Bool.not_eq_true]
  intro isDirectory
  rcases deep with deep | ⟨normal, deep⟩
  · omega
  · have bounded := places.length_le normal isDirectory
    omega

/-- Explore the entries of a directory one after the other. -/
def exploreEntries (store : SourceStore) (depth : Nat) (path : SourcePath)
    (cache : DirectoryCache) : Traced (List Bool × DirectoryCache) :=
  Traced.mapState (fun name => explore store depth (path.combine ⟨name⟩)) (store.entryNames path)
    cache

/-- A directory that is not in the cache is listed, its entries are explored, and those that were
found to be directories become its listing. -/
theorem explore_of_unknown (depth : Nat) (unknown : cache.listings.contains path = false)
    (isDirectory : store.isDirectory path = true) :
    let walk := exploreEntries store depth path cache
    let listing := (marked (store.entryNames path) walk.value.1).mergeSort
      fun left right => left ≤ right
    explore store (depth + 1) path cache =
      ⟨(true, ⟨walk.value.2.listings.insert path listing⟩),
        [.listed path] ++ (walk.events ++ [.cachedListing path listing.length])⟩ := by
  intro walk listing
  rw [explore, unknown, if_neg Bool.false_ne_true, if_pos isDirectory]
  rfl

/-- Exploring looks no further than the path, or it lists a directory that is not in the cache. -/
theorem explore_cases (store : SourceStore) (depth : Nat) (path : SourcePath)
    (cache : DirectoryCache) :
    explore store (depth + 1) path cache = pure (cache.knows store path, cache) ∨
      cache.listings.contains path = false ∧ store.isDirectory path = true := by
  rw [explore, knows]
  cases cache.listings.contains path with
  | true => exact .inl rfl
  | false =>
      cases store.isDirectory path with
      | true => exact .inr ⟨rfl, rfl⟩
      | false => exact .inl rfl

/-- Exploring finds what counts as a directory and leaves all listings that are owed as they
were. -/
def FindsKnown (store : SourceStore) (depth : Nat) : Prop :=
  ∀ path cache, Suffices store depth path →
    (explore store depth path cache).value.1 = cache.knows store path ∧
      SameListings store (explore store depth path cache).value.2 cache

/-- The entries of a directory are told apart by whether they count as directories. -/
theorem FindsKnown.entries (finds : FindsKnown store depth) (places : store.ListsPlaces)
    (deep : Suffices store (depth + 1) path) (cache : DirectoryCache) :
    let walk := (exploreEntries store depth path cache).value
    List.Forall₂ (fun name flag => flag = cache.knows store (path.combine ⟨name⟩))
        (store.entryNames path) walk.1 ∧
      SameListings store walk.2 cache := by
  refine Traced.mapState_keeps _ (SameListings store · cache)
    (fun name flag => flag = cache.knows store (path.combine ⟨name⟩)) ?_ fun _ => rfl
  intro name member state same
  obtain ⟨found, next⟩ := finds (path.combine ⟨name⟩) state (deep.entry (places.isSegment member))
  exact ⟨found.trans (same.knows_eq _), fun place => (next place).trans (same place)⟩

theorem findsKnown (places : store.ListsPlaces) (depth : Nat) : FindsKnown store depth := by
  induction depth with
  | zero =>
      intro path cache deep
      rw [knows, deep.isDirectory_eq_false places, Bool.or_false]
      exact ⟨rfl, fun _ => rfl⟩
  | succ depth inductionHypothesis =>
      intro path cache deep
      rcases explore_cases store depth path cache with near | ⟨unknown, isDirectory⟩
      · rw [near]
        exact ⟨rfl, fun _ => rfl⟩
      · obtain ⟨flags, explored⟩ := inductionHypothesis.entries places deep cache
        have owed := listing?_of_unknown unknown isDirectory
        rw [freshListing, ← marked_eq_filter flags] at owed
        rw [explore_of_unknown depth unknown isDirectory, knows, isDirectory, Bool.or_true]
        refine ⟨rfl, fun place => ?_⟩
        have entered := sameListings_insert places isDirectory ((explored path).trans owed)
        exact (entered place).trans (explored place)

/-- A directory is found exactly if a listing is owed to it. -/
theorem directoryExists_eq (places : store.ListsPlaces) (path : SourcePath)
    (cache : DirectoryCache) :
    (cache.directoryExists store path).value.1 = (cache.listing? store path).isSome ∧
      SameListings store (cache.directoryExists store path).value.2 cache := by
  rw [isSome_listing?]
  exact findsKnown places _ path cache (.inl (Nat.lt_succ_self _))

/-- The subdirectories of a directory are the listing that is owed to it. -/
theorem list_eq (places : store.ListsPlaces) (path : SourcePath) (cache : DirectoryCache) :
    (DirectoryCache.list store path cache).value.1 = (cache.listing? store path).getD [] ∧
      SameListings store (DirectoryCache.list store path cache).value.2 cache := by
  obtain ⟨found, same⟩ := directoryExists_eq places path cache
  refine ⟨?_, same⟩
  show ((cache.directoryExists store path).value.2.cached? path).getD [] = _
  rw [directoryExists, explore_eq_contains, ← directoryExists, contains_eq_isSome_cached?] at found
  cases after : (cache.directoryExists store path).value.2.cached? path with
  | none =>
      rw [after, Option.isSome_none, eq_comm, Option.isSome_eq_false_iff,
        Option.isNone_iff_eq_none] at found
      rw [found]
  | some names =>
      have owed := same path
      rw [listing?, after, Option.some_or] at owed
      rw [← owed]

/-- What exploring enters is the path itself or lies below it. -/
def EntersBelow (store : SourceStore) (depth : Nat) : Prop :=
  ∀ path cache place, (explore store depth path cache).value.2.listings.contains place = true →
    cache.listings.contains place = true ∨ path.components = place.components ∨
      path.LeadsDownTo place

/-- What exploring the entries of a directory enters lies below the directory. -/
theorem EntersBelow.entries (enters : EntersBelow store depth) (places : store.ListsPlaces)
    {cache : DirectoryCache}
    (entered : (exploreEntries store depth path cache).value.2.listings.contains place = true) :
    cache.listings.contains place = true ∨ path.LeadsDownTo place := by
  revert entered
  refine (Traced.mapState_keeps _ (fun state : DirectoryCache =>
    state.listings.contains place = true →
      cache.listings.contains place = true ∨ path.LeadsDownTo place) (fun _ _ => True) ?_ .inl).2
  intro name member state kept
  refine ⟨trivial, fun entered => ?_⟩
  have segment := places.isSegment member
  rcases enters _ _ _ entered with before | same | below
  · exact kept before
  · exact .inr (SourcePath.leadsDownTo_of_components segment same.symm)
  · exact .inr (below.of_combine segment)

theorem contains_insert (cache : DirectoryCache) (path : SourcePath) (names : List String)
    (place : SourcePath) :
    (cache.listings.insert path names).contains place =
      (path.components == place.components || cache.listings.contains place) := by
  rw [PathMap.contains_eq_isSome, PathMap.find?_insert, PathMap.contains_eq_isSome]
  split
  · next same => simp [same]
  · next differ => simp [differ]

theorem entersBelow (places : store.ListsPlaces) (depth : Nat) : EntersBelow store depth := by
  induction depth with
  | zero => exact fun path cache place known => .inl known
  | succ depth inductionHypothesis =>
      intro path cache place entered
      rcases explore_cases store depth path cache with near | ⟨unknown, isDirectory⟩
      · rw [near] at entered
        exact .inl entered
      · rw [explore_of_unknown depth unknown isDirectory, contains_insert, Bool.or_eq_true,
          beq_iff_eq] at entered
        rcases entered with itself | walked
        · exact .inr (.inl itself)
        · exact (inductionHypothesis.entries places walked).imp_right .inr

/-- Listing a directory is paid for by entering it, if the walk over its entries pays for itself
and does not enter the directory. -/
theorem fills_list {events : List Event}
    (walk : Event.Fills (Event.isListingAt place) events (cache.listings.contains place)
      (explored.listings.contains place))
    (unentered : explored.listings.contains path = false) (names : List String) (count : Nat) :
    Event.Fills (Event.isListingAt place)
      ([.listed path] ++ (events ++ [.cachedListing path count]))
      (cache.listings.contains place) ((explored.listings.insert path names).contains place) := by
  have counted : ([Event.listed path] ++ (events ++ [Event.cachedListing path count])).countP
      (Event.isListingAt place) =
        (path.components == place.components).toNat + events.countP (Event.isListingAt place) := by
    rw [List.countP_append, List.countP_append]
    cases same : path.components == place.components <;> simp [Event.isListingAt, same]
  rw [Event.Fills] at walk
  rw [Event.Fills, counted, contains_insert]
  cases same : path.components == place.components with
  | true =>
      rw [← contains_congr explored (beq_iff_eq.mp same), unentered, Bool.toNat_false] at walk
      simp only [Bool.true_or, Bool.toNat_true]
      omega
  | false =>
      simp only [Bool.false_or, Bool.toNat_false]
      omega

/-- Exploring lists directories and enters listings, and nothing else happens. -/
theorem mem_events_explore {event : Event}
    (member : event ∈ (explore store depth path cache).events) :
    (∃ listed, event = .listed listed) ∨ ∃ entered count, event = .cachedListing entered count := by
  induction depth generalizing path cache with
  | zero => cases member
  | succ depth inductionHypothesis =>
      rcases explore_cases store depth path cache with near | ⟨unknown, isDirectory⟩
      · rw [near] at member
        cases member
      · rw [explore_of_unknown depth unknown isDirectory] at member
        rcases List.mem_append.mp member with first | later
        · exact .inl ⟨path, List.mem_singleton.mp first⟩
        rcases List.mem_append.mp later with walked | last
        · obtain ⟨name, state, inside⟩ := Traced.mem_events_mapState walked
          exact inductionHypothesis inside
        · exact .inr ⟨path, _, List.mem_singleton.mp last⟩

/-- Every listing by the store enters a directory that was not in the cache. -/
theorem fills_explore (places : store.ListsPlaces) (place : SourcePath) (depth : Nat)
    (path : SourcePath) (cache : DirectoryCache) :
    Event.Fills (Event.isListingAt place) (explore store depth path cache).events
      (cache.listings.contains place)
      ((explore store depth path cache).value.2.listings.contains place) := by
  induction depth generalizing path cache with
  | zero => exact Event.fills_nil _ _
  | succ depth inductionHypothesis =>
      rcases explore_cases store depth path cache with near | ⟨unknown, isDirectory⟩
      · rw [near]
        exact Event.fills_nil _ _
      · have walk : Event.Fills (Event.isListingAt place)
            (exploreEntries store depth path cache).events (cache.listings.contains place)
            ((exploreEntries store depth path cache).value.2.listings.contains place) :=
          Traced.fills_mapState (DirectoryCache.listings · |>.contains place)
            (fun name state => inductionHypothesis (path.combine ⟨name⟩) state) _ cache
        have unentered :
            (exploreEntries store depth path cache).value.2.listings.contains path = false := by
          rw [← Bool.not_eq_true]
          intro entered
          rcases (entersBelow places depth).entries places entered with before | below
          · exact Bool.false_ne_true (unknown.symm.trans before)
          · exact path.not_leadsDownTo_self below
        rw [explore_of_unknown depth unknown isDirectory]
        exact fills_list walk unentered _ _

end DirectoryCache

end ScriptAnalysis
