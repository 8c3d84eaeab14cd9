import ScriptAnalysis.Proofs.Cache.Content

/-!
# Entries of a snapshot cache

An entry gets into a snapshot cache only as a fresh snapshot, under the path that was asked
for or under an older spelling of its place. So a property of entries holds throughout
(`Every`) if it admits the texts that are pushed and the texts that the store feeds. Three
properties matter: that the store reads tracked files as it reads plain spellings, that
every snapshot is taken under a spelling of its own place (`IsSpelled`), and that every
snapshot is the capture of a known text under a plain path (`IsCapture`).
-/

namespace ScriptAnalysis.SnapshotCache

variable {fits weaker : SourcePath → Snapshot → Prop} {store : SourceStore} {cache : SnapshotCache}
  {path directory : SourcePath} {text : String}

/-- Every entry has the property. -/
def Every (fits : SourcePath → Snapshot → Prop) (cache : SnapshotCache) : Prop :=
  ∀ entry ∈ cache.entries.entries, fits entry.1 entry.2

/-- The property holds of the text captured under the path, under whatever spelling the place
is entered already. -/
def Admits (fits : SourcePath → Snapshot → Prop) (path : SourcePath) (text : String) : Prop :=
  ∀ key, (key = path ∨ key.components = path.components ∧ ∃ old, fits key old) →
    fits key (Snapshot.capture path text)

/-- The property admits everything that the store holds under a plain path or a tracked one. -/
def Feeds (fits : SourcePath → Snapshot → Prop) (store : SourceStore) : Prop :=
  ∀ path text, (path.IsPlain ∨ ∃ old, fits path old) → store.held path = some text →
    Admits fits path text

theorem every_empty : Every fits empty := by
  intro entry member
  cases member

theorem Every.imp (every : cache.Every fits) (stronger : ∀ key snapshot, fits key snapshot →
    weaker key snapshot) : cache.Every weaker :=
  fun entry member => stronger _ _ (every entry member)

theorem Every.of_mem_tracked (every : cache.Every fits) {key : SourcePath}
    (member : key ∈ cache.tracked) : ∃ snapshot, fits key snapshot := by
  obtain ⟨entry, there, rfl⟩ := List.mem_map.mp member
  exact ⟨entry.2, every entry there⟩

theorem Every.of_cached (every : cache.Every fits) {snapshot : Snapshot}
    (cached : cache.cached? path = some snapshot) :
    ∃ key, key.components = path.components ∧ fits key snapshot := by
  obtain ⟨key, member, same⟩ := PathMap.mem_of_find? cached
  exact ⟨key, same, every _ member⟩

theorem Every.insert (every : cache.Every fits) (admits : Admits fits path text) :
    Every fits ⟨cache.entries.insert path (Snapshot.capture path text)⟩ := by
  intro entry member
  rcases PathMap.mem_insertEntry member with ⟨fresh, spelled⟩ | older
  · rw [fresh]
    refine admits entry.1 (spelled.imp_right ?_)
    rintro ⟨old, there, same⟩
    exact ⟨same, old, every _ there⟩
  · exact every entry older

theorem Every.keep (every : cache.Every fits) (admits : Admits fits path text) :
    (cache.keep path text).2.Every fits := by
  rw [SnapshotCache.keep]
  split
  · split
    · exact every
    · exact every.insert admits
  · exact every.insert admits

theorem Every.evict (every : cache.Every fits) (path : SourcePath) :
    (cache.evict path).2.Every fits :=
  fun entry member => every entry (List.mem_of_mem_filter member)

theorem Every.refresh (every : cache.Every fits)
    (admits : ∀ text, store.held path = some text → Admits fits path text) :
    (cache.refresh store path).value.2.Every fits := by
  rw [SnapshotCache.refresh, Traced.value_bind, SourceStore.value_readNonEmpty,
    ← SourceStore.held]
  cases held : store.held path with
  | some text => exact every.keep (admits text held)
  | none =>
      cases tracked : cache.isTracked path with
      | true => simpa [SnapshotCache.evict, tracked] using every.evict path
      | false => simpa [SnapshotCache.evict, tracked] using every

theorem Every.refreshAll (every : cache.Every fits) (feeds : Feeds fits store)
    {paths : List SourcePath} (known : ∀ path ∈ paths, ∃ old, fits path old) :
    (SnapshotCache.refreshAll store paths cache).value.Every fits := by
  induction paths generalizing cache with
  | nil => exact every
  | cons path rest inductionHypothesis =>
      rw [SnapshotCache.refreshAll, Traced.value_bind]
      have first := every.refresh fun text =>
        feeds path text (.inr (known path List.mem_cons_self))
      exact inductionHypothesis first fun other member =>
        known other (List.mem_cons_of_mem path member)

theorem Every.refreshUnder (every : cache.Every fits) (feeds : Feeds fits store)
    (directory : SourcePath) : (cache.refreshUnder store directory).value.2.Every fits :=
  every.refreshAll feeds fun _ member => every.of_mem_tracked (List.mem_of_mem_filter member)

theorem Every.fileChanged_of_admits (every : cache.Every fits)
    (admits : ∀ text, store.held path = some text → Admits fits path text) :
    (cache.fileChanged store path).value.2.Every fits := by
  rw [fileChanged_value]
  split
  · exact every.refresh admits
  · exact every

theorem Every.fileChanged (every : cache.Every fits) (feeds : Feeds fits store)
    (plain : path.IsPlain) : (cache.fileChanged store path).value.2.Every fits :=
  every.fileChanged_of_admits fun text => feeds path text (.inl plain)

theorem Every.snapshot_of_admits (every : cache.Every fits)
    (admits : ∀ text, store.held path = some text → Admits fits path text) :
    (cache.snapshot store path).value.2.Every fits := by
  rw [SnapshotCache.snapshot]
  split
  · exact every
  · exact every.refresh admits

theorem Every.snapshot (every : cache.Every fits) (feeds : Feeds fits store)
    (plain : path.IsPlain) : (cache.snapshot store path).value.2.Every fits :=
  every.snapshot_of_admits fun text => feeds path text (.inl plain)

theorem Every.loadAll (every : cache.Every fits) (feeds : Feeds fits store)
    {files : List SourcePath} (plain : ∀ file ∈ files, file.IsPlain) :
    (cache.loadAll store files).Every fits := by
  induction files generalizing cache with
  | nil => exact every
  | cons file rest inductionHypothesis =>
      have first := every.snapshot feeds (plain file List.mem_cons_self)
      exact inductionHypothesis first fun other member =>
        plain other (List.mem_cons_of_mem file member)

theorem Every.setContent_of_admits (every : cache.Every fits)
    (reads : ∀ held, store.held path = some held → Admits fits path held)
    (admits : text ≠ "" → Admits fits path text) :
    (cache.setContent store path text).value.2.Every fits := by
  rw [SnapshotCache.setContent]
  split
  · exact every.refresh reads
  · next nonempty => exact every.keep (admits (by simpa using nonempty))

theorem Every.setContent (every : cache.Every fits) (feeds : Feeds fits store)
    (plain : path.IsPlain) (admits : text ≠ "" → Admits fits path text) :
    (cache.setContent store path text).value.2.Every fits :=
  every.setContent_of_admits (fun held => feeds path held (.inl plain)) admits

/-- Nothing but a plain path or a path that is read like one is ever tracked. -/
theorem feeds_readsTracked (store : SourceStore) :
    Feeds (fun key _ => store.held key = store.held key.plain) store := by
  intro path text known held key spelled
  rcases spelled with rfl | ⟨_, _, alike⟩
  · rcases known with plain | ⟨_, alike⟩
    · rw [plain]
    · exact alike
  · exact alike

theorem readsTracked_iff_every :
    ReadsTracked store cache ↔
      cache.Every fun key _ => store.held key = store.held key.plain := by
  rw [ReadsTracked, tracked, PathMap.keys, List.forall_mem_map]
  rfl

/-- The snapshot is taken under a spelling of the place of its entry. -/
def IsSpelled (key : SourcePath) (snapshot : Snapshot) : Prop :=
  snapshot.path.components = key.components

theorem admits_isSpelled (path : SourcePath) (text : String) : Admits IsSpelled path text := by
  rintro key (rfl | ⟨same, _⟩)
  · rfl
  · exact same.symm

theorem feeds_isSpelled (store : SourceStore) : Feeds IsSpelled store :=
  fun path text _ _ => admits_isSpelled path text

/-- The snapshot is the capture of a text of the given kind under its own plain path. -/
structure IsCapture (texts : String → Prop) (key : SourcePath) (snapshot : Snapshot) : Prop where
  plain : key.IsPlain
  known : texts snapshot.text
  captured : snapshot = Snapshot.capture key snapshot.text

/-- Where all keys are plain, a plain path is entered under no other spelling. -/
theorem admits_of_plain (plainKeys : ∀ key snapshot, fits key snapshot → key.IsPlain)
    (plain : path.IsPlain) (holds : fits path (Snapshot.capture path text)) :
    Admits fits path text := by
  intro key spelled
  have same : key = path := by
    rcases spelled with rfl | ⟨same, old, there⟩
    · rfl
    · exact (plainKeys key old there).eq_of_components plain same
  rwa [same]

/-- Where all keys are plain, what is found under a plain path is entered under it. -/
theorem Every.of_cached_plain (every : cache.Every fits)
    (plainKeys : ∀ key snapshot, fits key snapshot → key.IsPlain) (plain : path.IsPlain)
    {snapshot : Snapshot} (cached : cache.cached? path = some snapshot) : fits path snapshot := by
  obtain ⟨key, same, holds⟩ := every.of_cached cached
  rwa [← (plainKeys key snapshot holds).eq_of_components plain same]

/-- A text of the kind can be pushed under a plain path. -/
theorem admits_isCapture {texts : String → Prop} (plain : path.IsPlain) (known : texts text) :
    Admits (IsCapture texts) path text :=
  admits_of_plain (fun _ _ => IsCapture.plain) plain ⟨plain, known, rfl⟩

/-- A store feeds captures if every text that it holds is of the kind. -/
theorem feeds_isCapture {texts : String → Prop}
    (known : ∀ path text, store.held path = some text → texts text) :
    Feeds (IsCapture texts) store := by
  intro path text spelled held
  have plain : path.IsPlain := spelled.elim id fun ⟨_, old⟩ => old.plain
  exact admits_isCapture plain (known path text held)

/-- What is found under a plain path is the capture of its text. -/
theorem Every.capture_of_cached {texts : String → Prop} (every : cache.Every (IsCapture texts))
    (plain : path.IsPlain) {snapshot : Snapshot} (cached : cache.cached? path = some snapshot) :
    texts snapshot.text ∧ snapshot = Snapshot.capture path snapshot.text := by
  have isCapture := every.of_cached_plain (fun _ _ => IsCapture.plain) plain cached
  exact ⟨isCapture.known, isCapture.captured⟩

variable {texts : String → Prop}

/-- Among captures the content of a path determines its snapshot. -/
theorem Every.cached?_eq_capture (every : cache.Every (IsCapture texts)) (path : SourcePath) :
    cache.cached? path =
      (cache.content? path).map fun content => Snapshot.capture path.plain content.text := by
  rw [content?, ← cache.cached?_congr path.components_plain]
  cases found : cache.cached? path.plain with
  | none => rfl
  | some snapshot => exact congrArg some (every.capture_of_cached path.isPlain_plain found).2

/-- Among captures whose versions differ from those of other texts, a request finds the capture
of its effective text. -/
theorem Every.cached?_setContent (every : cache.Every (IsCapture texts)) (plain : path.IsPlain)
    {pushed : String} (distinct : ∀ text, store.effective path pushed = some text →
      ∀ old, texts old → ContentHash.ofText old = ContentHash.ofText text → old = text) :
    (cache.setContent store path pushed).value.2.cached? path =
      (store.effective path pushed).map (Snapshot.capture path) := by
  refine cached?_setContent_of_distinct fun text effective old found same => ?_
  obtain ⟨known, captured⟩ := every.capture_of_cached plain found
  rw [captured] at same
  rw [captured, distinct text effective old.text known same]

end ScriptAnalysis.SnapshotCache
