import ScriptAnalysis.Proofs.Cache.Exploration

/-!
# Exploring without a bound

`Explores` is the exploration of a directory and its entries with no bound on the depth, so what
has an outcome ends. Two outcomes never differ (`Explores.unique`), and in a store that lists
places the question whether a path is a directory always has one (`explores_iff`): below a normal
path every step adds a component, so the nesting of the store bounds the exploration.
-/

namespace ScriptAnalysis

namespace DirectoryCache

variable {store : SourceStore} {cache : DirectoryCache} {path : SourcePath}

mutual

/-- Exploring without any bound on the depth: whether the path is a directory, and the cache
afterwards. What does not end has no outcome. -/
inductive Explores (store : SourceStore) :
    SourcePath → DirectoryCache → Traced (Bool × DirectoryCache) → Prop where
  | known {path : SourcePath} {cache : DirectoryCache}
      (known : cache.listings.contains path = true) :
      Explores store path cache (pure (true, cache))
  | absent {path : SourcePath} {cache : DirectoryCache}
      (unknown : cache.listings.contains path = false)
      (absent : store.isDirectory path = false) :
      Explores store path cache (pure (false, cache))
  | listed {path : SourcePath} {cache : DirectoryCache}
      {walk : Traced (List Bool × DirectoryCache)}
      (unknown : cache.listings.contains path = false)
      (isDirectory : store.isDirectory path = true)
      (walks : ExploresEach store path (store.entryNames path) cache walk) :
      Explores store path cache do
        let names ← store.list path
        let (flags, explored) ← walk
        let (_, next) ← record path (marked names flags) explored
        pure (true, next)

/-- Exploring the entries of a directory one after the other, without any bound. -/
inductive ExploresEach (store : SourceStore) :
    SourcePath → List String → DirectoryCache → Traced (List Bool × DirectoryCache) → Prop where
  | done {path : SourcePath} {cache : DirectoryCache} :
      ExploresEach store path [] cache (pure ([], cache))
  | next {path : SourcePath} {name : String} {rest : List String} {cache : DirectoryCache}
      {first : Traced (Bool × DirectoryCache)} {others : Traced (List Bool × DirectoryCache)}
      (explores : Explores store (path.combine ⟨name⟩) cache first)
      (walks : ExploresEach store path rest first.value.2 others) :
      ExploresEach store path (name :: rest) cache do
        let (flag, _) ← first
        let (flags, last) ← others
        pure (flag :: flags, last)

end

/-- What was known before, what is absent and what is listed exclude each other, and the order of
the entries fixes the rest. -/
theorem Explores.unique {left right : Traced (Bool × DirectoryCache)}
    (explores : Explores store path cache left) (alike : Explores store path cache right) :
    left = right := by
  revert right
  refine @Explores.rec store
    (fun path cache left _ => ∀ {right}, Explores store path cache right → left = right)
    (fun path names cache left _ => ∀ {right}, ExploresEach store path names cache right →
      left = right) ?known ?absent ?listed ?done ?next path cache left explores
  case known =>
    intro path cache known right other
    cases other with
    | known => rfl
    | absent unknown => cases known.symm.trans unknown
    | listed unknown => cases known.symm.trans unknown
  case absent =>
    intro path cache unknown absent right other
    cases other with
    | known known => cases known.symm.trans unknown
    | absent => rfl
    | listed _ isDirectory => cases absent.symm.trans isDirectory
  case listed =>
    intro path cache walk unknown isDirectory walks inductionHypothesis right other
    cases other with
    | known known => cases known.symm.trans unknown
    | absent _ absent => cases absent.symm.trans isDirectory
    | listed _ _ others => rw [inductionHypothesis others]
  case done =>
    intro path cache right other
    cases other
    rfl
  case next =>
    intro path name rest cache first others explores walks once rests right other
    cases other with
    | next explores' walks' =>
        obtain rfl := once explores'
        rw [rests walks']

/-- Exploring to a depth that suffices is exploring without a bound. -/
theorem explores_explore (places : store.ListsPlaces) (depth : Nat) (path : SourcePath)
    (cache : DirectoryCache) (deep : Suffices store depth path) :
    Explores store path cache (explore store depth path cache) := by
  induction depth generalizing path cache with
  | zero =>
      rw [explore]
      cases known : cache.listings.contains path with
      | true => exact .known known
      | false => exact .absent known (deep.isDirectory_eq_false places)
  | succ depth inductionHypothesis =>
      have each : ∀ names ⊆ store.entryNames path, ∀ state,
          ExploresEach store path names state (Traced.mapState
            (fun name => explore store depth (path.combine ⟨name⟩)) names state) := by
        intro names entries state
        induction names generalizing state with
        | nil => exact .done
        | cons name rest later =>
            obtain ⟨entry, others⟩ := List.cons_subset.mp entries
            have segment := places.isSegment entry
            exact .next (inductionHypothesis _ _ (deep.entry segment)) (later others _)
      rw [explore]
      split
      · next known => exact .known known
      · next unknown =>
          rw [Bool.not_eq_true] at unknown
          split
          · next isDirectory =>
              exact .listed unknown isDirectory (each _ (List.Subset.refl _) cache)
          · next absent => exact .absent unknown (Bool.eq_false_iff.mpr absent)

/-- The one outcome of exploring without a bound is the answer to the question for a directory. -/
theorem explores_iff (places : store.ListsPlaces) {outcome : Traced (Bool × DirectoryCache)} :
    Explores store path cache outcome ↔ outcome = cache.directoryExists store path := by
  have explores : Explores store path cache (cache.directoryExists store path) :=
    explores_explore places _ path cache (.inl (Nat.lt_succ_self _))
  constructor
  · intro other
    exact other.unique explores
  · rintro rfl
    exact explores

end DirectoryCache

end ScriptAnalysis
