import ScriptAnalysis.Cache.Snapshots
import ScriptAnalysis.Proofs.Path.Map
import ScriptAnalysis.Proofs.Path.Spelling
import ScriptAnalysis.Proofs.Store.Tree

/-!
# Contents of a snapshot cache

The `Content` of a tracked file is its snapshot without the spelling of the path. Every
operation of the snapshot cache acts on the content of each place by one of three
functions of what the store holds there: `refreshed` takes it over, `reread` does so
only where the file is tracked, and `load` only where it is not. Rereading and loading are
idempotent and commute, whether or not versions tell texts apart. Where versions do, all three
act on plain texts (`refreshed_map_ofText`).
-/

namespace ScriptAnalysis

/-- Versions tell all texts of a list apart. -/
def DistinctVersions (texts : List String) : Prop :=
  ∀ left ∈ texts, ∀ right ∈ texts, ContentHash.ofText left = ContentHash.ofText right →
    left = right

instance (texts : List String) : Decidable (DistinctVersions texts) :=
  inferInstanceAs (Decidable (∀ left ∈ texts, ∀ right ∈ texts, _ → _))

theorem DistinctVersions.of_subset {few many : List String} (distinct : DistinctVersions many)
    (subset : few ⊆ many) : DistinctVersions few :=
  fun left leftMember right rightMember =>
    distinct left (subset leftMember) right (subset rightMember)

/-- What a snapshot says about a text, under whatever path it was taken. -/
structure Content where
  text : String
  version : ContentHash
  lineStarts : List Nat
  deriving DecidableEq

/-- The content of a snapshot. -/
def Snapshot.content (snapshot : Snapshot) : Content :=
  ⟨snapshot.text, snapshot.version, snapshot.lineStarts⟩

/-- The text that a store holds for analysis; an empty file counts as absent. -/
def SourceStore.held (store : SourceStore) (path : SourcePath) : Option String :=
  (store.read path).nonEmpty?

theorem Tree.held_eq (tree : Tree) (path : SourcePath) :
    tree.store.held path = (tree.textAt path.components).filter fun text => !text.isEmpty := by
  rw [SourceStore.held, ← Tree.text?_eq_textAt, ReadOutcome.nonEmpty?, Tree.store]
  simp only
  cases tree.text? path <;> rfl

/-- What a tree holds is the text of one of its files, and not empty. -/
theorem Tree.mem_files_of_held {tree : Tree} {path : SourcePath} {text : String}
    (held : tree.store.held path = some text) : text ≠ "" ∧ ∃ file ∈ tree.files, file.2 = text := by
  rw [held_eq, Option.filter_eq_some_iff] at held
  obtain ⟨found, nonempty⟩ := held
  exact ⟨by simpa using nonempty, mem_files_of_textAt found⟩

/-- A tree holds the same text under all spellings of a place. -/
theorem Tree.held_congr (tree : Tree) {path place : SourcePath}
    (same : path.components = place.components) : tree.store.held path = tree.store.held place := by
  rw [held_eq, held_eq, same]

/-- The store reads all spellings of a place alike. A tree does; on a disk the path of a file
leads nowhere if a separator is put behind it. -/
def SourceStore.ReadsPlaces (store : SourceStore) : Prop :=
  ∀ left right : SourcePath, left.components = right.components →
    store.read left = store.read right

theorem Tree.readsPlaces (tree : Tree) : tree.store.ReadsPlaces := by
  intro left right same
  simp only [Tree.store, Tree.text?, same]

theorem SourceStore.ReadsPlaces.held_congr {store : SourceStore} (places : store.ReadsPlaces)
    {path place : SourcePath} (same : path.components = place.components) :
    store.held path = store.held place := by
  rw [held, held, places path place same]

/-- The text that a request is about: the pushed one, or what the store holds if that is
empty. -/
def SourceStore.effective (store : SourceStore) (path : SourcePath) (pushed : String) :
    Option String :=
  if pushed.isEmpty then store.held path else some pushed

namespace Content

variable {old : Option Content} {held : Option String} {text : String}

/-- The content of a fresh snapshot. -/
def ofText (text : String) : Content :=
  ⟨text, ContentHash.ofText text, Snapshot.lineStartsOf text⟩

@[simp]
theorem content_capture (path : SourcePath) (text : String) :
    (Snapshot.capture path text).content = ofText text := rfl

/-- A text becomes the content, unless the old content has its version. -/
def settle (old : Option Content) (text : String) : Content :=
  match old with
  | some content => if content.version = ContentHash.ofText text then content else ofText text
  | none => ofText text

/-- What the store holds becomes the content. -/
def refreshed (held : Option String) (old : Option Content) : Option Content :=
  held.map (settle old)

/-- A tracked content is refreshed. -/
def reread (held : Option String) (old : Option Content) : Option Content :=
  old.bind fun content => refreshed held (some content)

/-- A content that is not tracked is read. -/
def load (held : Option String) (old : Option Content) : Option Content :=
  old.or (refreshed held none)

theorem settle_settle (old : Option Content) (text : String) :
    settle (some (settle old text)) text = settle old text := by
  cases old with
  | none => simp [settle, ofText]
  | some content =>
      by_cases same : content.version = ContentHash.ofText text <;> simp [settle, same, ofText]

@[simp]
theorem refreshed_refreshed (held : Option String) (old : Option Content) :
    refreshed held (refreshed held old) = refreshed held old := by
  cases held with
  | none => rfl
  | some text => simp [refreshed, settle_settle]

theorem reread_reread (held : Option String) (old : Option Content) :
    reread held (reread held old) = reread held old := by
  cases old with
  | none => rfl
  | some content =>
      cases held with
      | none => rfl
      | some text => simp [reread, refreshed, settle_settle]

theorem load_load (held : Option String) (old : Option Content) :
    load held (load held old) = load held old := by
  cases old with
  | none => cases held <;> rfl
  | some content => rfl

/-- Loading before rereading is rereading before loading. -/
theorem reread_load (held : Option String) (old : Option Content) :
    reread held (load held old) = load held (reread held old) := by
  cases held with
  | none => cases old <;> rfl
  | some text =>
      cases old with
      | none => simp [reread, load, refreshed, settle, ofText]
      | some content => rfl

/-- What becomes of a content that is loaded or reread, any number of times each. -/
def settled (loaded rereads : Bool) (held : Option String) (old : Option Content) :
    Option Content :=
  let tracked := if loaded then load held old else old
  if rereads then reread held tracked else tracked

/-- Only whether a content is loaded and whether it is reread counts. -/
theorem settled_settled (first second third fourth : Bool) (held : Option String)
    (old : Option Content) :
    settled third fourth held (settled first second held old) =
      settled (first || third) (second || fourth) held old := by
  cases first <;> cases second <;> cases third <;> cases fourth <;>
    simp [settled, load_load, reread_reread, reread_load]

/-- Where versions tell the texts apart, refreshing takes over what is held. -/
theorem refreshed_map_ofText {text : Option String}
    (distinct : ∀ new ∈ held, ∀ old ∈ text,
      ContentHash.ofText old = ContentHash.ofText new → old = new) :
    refreshed held (text.map ofText) = held.map ofText := by
  refine Option.map_congr fun new holds => ?_
  cases text with
  | none => rw [Option.map_none, settle]
  | some old =>
      rw [Option.map_some, settle]
      split
      · next same => rw [distinct new holds old rfl same]
      · rfl

theorem reread_map_ofText {text : Option String}
    (distinct : ∀ new ∈ held, ∀ old ∈ text,
      ContentHash.ofText old = ContentHash.ofText new → old = new) :
    reread held (text.map ofText) = (text.bind fun _ => held).map ofText := by
  cases text with
  | none => rfl
  | some old =>
      rw [reread, Option.map_some, Option.bind_some, Option.bind_some, ← Option.map_some,
        refreshed_map_ofText distinct]

theorem load_map_ofText (held text : Option String) :
    load held (text.map ofText) = (text.or held).map ofText := by
  have fresh : refreshed held none = held.map ofText := by
    apply Option.map_congr
    intro new _
    rw [settle]
  rw [load, Option.map_or, fresh]

/-- The version is that of the text, and tells it apart from a text that is held. -/
structure Identifies (held : Option String) (content : Content) : Prop where
  version : content.version = ContentHash.ofText content.text
  distinct : ∀ text, held = some text →
    ContentHash.ofText content.text = ContentHash.ofText text → content.text = text

/-- What was refreshed is what is held. -/
theorem held_of_refreshed {content : Content} (identifies : Identifies held content)
    (found : refreshed held old = some content) : held = some content.text := by
  obtain ⟨text, holds, same⟩ := Option.map_eq_some_iff.mp found
  rw [holds, Option.some_inj]
  cases old with
  | none =>
      rw [← same]
      rfl
  | some before =>
      rw [settle] at same
      split at same
      · next unchanged =>
          rw [same] at unchanged
          exact (identifies.distinct text holds (identifies.version.symm.trans unchanged)).symm
      · rw [← same]
        rfl

/-- What was loaded or reread is what is held, or it was loaded before and not reread. -/
theorem held_of_settled {content : Content} {loaded rereads : Bool}
    (identifies : Identifies held content)
    (found : settled loaded rereads held old = some content) :
    held = some content.text ∨ rereads = false ∧ old = some content := by
  cases rereads with
  | true =>
      obtain ⟨_, _, again⟩ := Option.bind_eq_some_iff.mp found
      exact .inl (held_of_refreshed identifies again)
  | false =>
      cases loaded with
      | false => exact .inr ⟨rfl, found⟩
      | true =>
          rcases Option.or_eq_some_iff.mp found with before | ⟨_, read⟩
          · exact .inr ⟨rfl, before⟩
          · exact .inl (held_of_refreshed identifies read)

end Content

namespace SnapshotCache

open Content

variable {store : SourceStore} {cache : SnapshotCache} {path place directory : SourcePath}
  {text : String}

theorem cached?_congr (cache : SnapshotCache) (same : path.components = place.components) :
    cache.cached? path = cache.cached? place :=
  PathMap.find?_congr _ same

/-- The content of a tracked file. -/
def content? (cache : SnapshotCache) (path : SourcePath) : Option Content :=
  (cache.cached? path).map Snapshot.content

theorem content?_of_cached? {looked : Option Snapshot} (found : cache.cached? path = looked) :
    cache.content? path = looked.map Snapshot.content := by
  rw [content?, found]

theorem content?_congr (cache : SnapshotCache) (same : path.components = place.components) :
    cache.content? path = cache.content? place := by
  rw [content?, cache.cached?_congr same]
  rfl

theorem isTracked_eq (cache : SnapshotCache) (path : SourcePath) :
    cache.isTracked path = (cache.content? path).isSome := by
  rw [isTracked, PathMap.contains_eq_isSome, content?, Option.isSome_map]
  rfl

theorem content?_insert (cache : SnapshotCache) (path : SourcePath) (snapshot : Snapshot)
    (place : SourcePath) :
    content? ⟨cache.entries.insert path snapshot⟩ place =
      if path.components = place.components then some snapshot.content
      else cache.content? place := by
  rw [content?, cached?, PathMap.find?_insert, apply_ite (Option.map Snapshot.content)]
  rfl

/-- Keeping a text settles it at its place. -/
theorem content?_keep (cache : SnapshotCache) (path : SourcePath) (text : String)
    (place : SourcePath) :
    (cache.keep path text).2.content? place =
      if path.components = place.components then some (settle (cache.content? path) text)
      else cache.content? place := by
  rw [keep]
  cases found : cache.cached? path with
  | none =>
      have before : cache.content? path = none := content?_of_cached? found
      rw [before]
      exact content?_insert cache path _ place
  | some existing =>
      have before : cache.content? path = some existing.content := content?_of_cached? found
      have version : existing.version = existing.content.version := rfl
      simp only [before, settle, Snapshot.capture, version]
      by_cases same : existing.content.version = ContentHash.ofText text
      · rw [if_pos same, if_pos same]
        split
        · next here => rw [← content?_congr cache here, before]
        · rfl
      · rw [if_neg same, if_neg same]
        exact content?_insert cache path _ place

theorem content?_evict (cache : SnapshotCache) (path place : SourcePath) :
    (cache.evict path).2.content? place =
      if path.components = place.components then none else cache.content? place := by
  rw [evict, content?, cached?, PathMap.find?_erase, apply_ite (Option.map Snapshot.content)]
  rfl

/-- Refreshing acts at the place of the path and nowhere else. -/
theorem content?_refresh (store : SourceStore) (path : SourcePath) (cache : SnapshotCache)
    (place : SourcePath) :
    (cache.refresh store path).value.2.content? place =
      if path.components = place.components then
        refreshed (store.held path) (cache.content? place)
      else cache.content? place := by
  rw [refresh, Traced.value_bind, SourceStore.value_readNonEmpty, ← SourceStore.held]
  cases held : store.held path with
  | some text =>
      simp only [Traced.value_pure, content?_keep, refreshed, Option.map_some]
      split
      · next here => rw [content?_congr cache here]
      · rfl
  | none =>
      simp only [refreshed, Option.map_none]
      cases tracked : cache.isTracked path with
      | true => simp [evict, tracked, ← content?_evict]
      | false =>
          simp only [evict, tracked, Bool.false_eq_true, if_false, Traced.value_pure]
          split
          · next here =>
              rw [isTracked_eq, Option.isSome_eq_false_iff, Option.isNone_iff_eq_none] at tracked
              rw [← content?_congr cache here, tracked]
          · rfl

/-- Refreshing a file that is missing or empty leaves nothing cached. -/
theorem cached?_refresh_of_absent (cache : SnapshotCache) (absent : store.held path = none) :
    (cache.refresh store path).value.2.cached? path = none := by
  have gone := content?_refresh store path cache path
  rwa [if_pos rfl, absent, refreshed, Option.map_none, content?, Option.map_eq_none_iff] at gone

/-- Taking a pushed text refreshes its place with the effective text. -/
theorem content?_setContent (store : SourceStore) (path : SourcePath) (pushed : String)
    (cache : SnapshotCache) (place : SourcePath) :
    (cache.setContent store path pushed).value.2.content? place =
      if path.components = place.components then
        refreshed (store.effective path pushed) (cache.content? place)
      else cache.content? place := by
  rw [setContent, SourceStore.effective]
  split
  · exact content?_refresh store path cache place
  · refine (content?_keep cache path pushed place).trans ?_
    split
    · next here => rw [content?_congr cache here]; rfl
    · rfl

/-- Asking for a snapshot loads the place of the path. -/
theorem content?_snapshot (store : SourceStore) (path : SourcePath) (cache : SnapshotCache)
    (place : SourcePath) :
    (cache.snapshot store path).value.2.content? place =
      if path.components = place.components then load (store.held path) (cache.content? place)
      else cache.content? place := by
  rw [snapshot]
  cases found : cache.cached? path with
  | some snapshot =>
      have before : cache.content? path = some snapshot.content := content?_of_cached? found
      simp only [Traced.value_pure]
      split
      · next here => rw [← content?_congr cache here, before]; rfl
      · rfl
  | none =>
      have before : cache.content? path = none := content?_of_cached? found
      rw [content?_refresh]
      split
      · next here => rw [← content?_congr cache here, before]; rfl
      · rfl

theorem cached?_insert_self (cache : SnapshotCache) (path : SourcePath) (snapshot : Snapshot) :
    cached? ⟨cache.entries.insert path snapshot⟩ path = some snapshot := by
  rw [cached?, PathMap.find?_insert, if_pos rfl]

/-- Keeping returns what is cached afterwards. -/
theorem cached?_keep_self (cache : SnapshotCache) (path : SourcePath) (text : String) :
    (cache.keep path text).2.cached? path = some (cache.keep path text).1 := by
  rw [keep]
  cases found : cache.cached? path with
  | none => exact cached?_insert_self cache path _
  | some existing =>
      simp only
      split
      · exact found
      · exact cached?_insert_self cache path _

/-- Keeping a text makes its capture the snapshot, unless another one is cached under its
version. -/
theorem cached?_keep_of_distinct {text : String}
    (distinct : ∀ old, cache.cached? path = some old →
      old.version = ContentHash.ofText text → old = Snapshot.capture path text) :
    (cache.keep path text).2.cached? path = some (Snapshot.capture path text) := by
  rw [keep]
  cases found : cache.cached? path with
  | none => exact cached?_insert_self cache path _
  | some existing =>
      simp only
      split
      · next same => rw [found, distinct existing found same]
      · exact cached?_insert_self cache path _

/-- Refreshing returns what is cached afterwards. -/
theorem cached?_refresh_self (store : SourceStore) (path : SourcePath) (cache : SnapshotCache) :
    (cache.refresh store path).value.2.cached? path = (cache.refresh store path).value.1 := by
  cases held : store.held path with
  | some text =>
      rw [refresh, Traced.value_bind, SourceStore.value_readNonEmpty, ← SourceStore.held, held]
      exact cached?_keep_self cache path text
  | none =>
      rw [cached?_refresh_of_absent cache held, refresh, Traced.value_bind,
        SourceStore.value_readNonEmpty, ← SourceStore.held, held]
      cases tracked : cache.isTracked path <;> simp [evict, tracked]

theorem cached?_setContent_self (store : SourceStore) (path : SourcePath) (text : String)
    (cache : SnapshotCache) :
    (cache.setContent store path text).value.2.cached? path =
      (cache.setContent store path text).value.1 := by
  rw [setContent]
  split
  · exact cached?_refresh_self store path cache
  · exact cached?_keep_self cache path text

/-- Setting a content makes the capture of the effective text the snapshot, unless another one
is cached under its version. -/
theorem cached?_setContent_of_distinct {pushed : String}
    (distinct : ∀ text, store.effective path pushed = some text →
      ∀ old, cache.cached? path = some old →
        old.version = ContentHash.ofText text → old = Snapshot.capture path text) :
    (cache.setContent store path pushed).value.2.cached? path =
      (store.effective path pushed).map (Snapshot.capture path) := by
  rw [setContent]
  rw [SourceStore.effective] at distinct ⊢
  split
  · next empty =>
      rw [if_pos empty] at distinct
      cases held : store.held path with
      | some text =>
          rw [refresh, Traced.value_bind, SourceStore.value_readNonEmpty, ← SourceStore.held, held]
          exact cached?_keep_of_distinct (distinct text held)
      | none => exact cached?_refresh_of_absent cache held
  · next nonempty =>
      rw [if_neg nonempty] at distinct
      exact cached?_keep_of_distinct (distinct pushed rfl)

theorem cached?_snapshot_self (store : SourceStore) (path : SourcePath) (cache : SnapshotCache) :
    (cache.snapshot store path).value.2.cached? path = (cache.snapshot store path).value.1 := by
  rw [snapshot]
  cases found : cache.cached? path with
  | some existing => exact found
  | none => exact cached?_refresh_self store path cache

/-- Whether the cache knows a file as well as the store does: it is tracked, or there is
nothing to track. -/
def Knows (store : SourceStore) (path : SourcePath) (cache : SnapshotCache) : Prop :=
  (cache.cached? path).isSome ∨ store.held path = none

/-- A file that is known is looked up and the cache stays as it is. -/
theorem Knows.snapshot_value (knows : cache.Knows store path) :
    (cache.snapshot store path).value = (cache.cached? path, cache) := by
  rw [snapshot]
  cases found : cache.cached? path with
  | some snapshot => rfl
  | none =>
      have absent : store.held path = none := by simpa [Knows, found] using knows
      have untracked : cache.isTracked path = false := by
        rw [isTracked_eq, content?_of_cached? found]
        rfl
      rw [SourceStore.held] at absent
      simp [refresh, absent, evict, untracked]

/-- A file is known once its content was set. -/
theorem knows_setContent (store : SourceStore) (path : SourcePath) (pushed : String)
    (cache : SnapshotCache) : (cache.setContent store path pushed).value.2.Knows store path := by
  have after := content?_setContent store path pushed cache path
  rw [if_pos rfl, content?] at after
  rw [Knows, ← Option.isSome_map, after, refreshed, Option.isSome_map, SourceStore.effective]
  split
  · cases store.held path <;> simp
  · exact .inl rfl

/-- The cache after asking for several snapshots. -/
def loadAll (store : SourceStore) (files : List SourcePath) (cache : SnapshotCache) :
    SnapshotCache :=
  files.foldl (fun current file => (current.snapshot store file).value.2) cache

/-- Asking for several snapshots under plain paths loads their places. -/
theorem content?_loadAll (store : SourceStore) {files : List SourcePath}
    (plain : ∀ file ∈ files, file.IsPlain) (cache : SnapshotCache) (place : SourcePath) :
    (cache.loadAll store files).content? place =
      if files.any fun file => file.components == place.components then
        load (store.held place.plain) (cache.content? place)
      else cache.content? place := by
  induction files generalizing cache with
  | nil => rfl
  | cons file rest inductionHypothesis =>
      have others := fun other member => plain other (List.mem_cons_of_mem file member)
      rw [loadAll, List.foldl_cons, ← loadAll, inductionHypothesis others, content?_snapshot,
        List.any_cons]
      by_cases here : file.components = place.components
      · have held : store.held file = store.held place.plain := by
          rw [← plain file List.mem_cons_self, SourcePath.plain_congr here]
        simp [here, held, load_load]
      · simp [here]

theorem fileChanged_value (store : SourceStore) (path : SourcePath) (cache : SnapshotCache) :
    (cache.fileChanged store path).value =
      if cache.isTracked path then (true, (cache.refresh store path).value.2)
      else (false, cache) := by
  rw [fileChanged]
  split <;> rfl

/-- The change of a file rereads its place. -/
theorem content?_fileChanged (store : SourceStore) (path : SourcePath) (cache : SnapshotCache)
    (place : SourcePath) :
    (cache.fileChanged store path).value.2.content? place =
      if path.components = place.components then reread (store.held path) (cache.content? place)
      else cache.content? place := by
  rw [fileChanged_value, isTracked_eq]
  cases before : cache.content? path with
  | some content =>
      rw [Option.isSome_some, if_pos rfl, content?_refresh]
      split
      · next here => rw [← content?_congr cache here, before]; rfl
      · rfl
  | none =>
      rw [Option.isSome_none, if_neg Bool.false_ne_true]
      split
      · next here => rw [← content?_congr cache here, before]; rfl
      · rfl

/-- Refreshing several files acts at the places of all of them, if the store reads each one
as it reads the plain spelling. -/
theorem content?_refreshAll (store : SourceStore) {paths : List SourcePath}
    (alike : ∀ path ∈ paths, store.held path = store.held path.plain) (cache : SnapshotCache)
    (place : SourcePath) :
    (refreshAll store paths cache).value.content? place =
      if paths.any fun path => path.components == place.components then
        refreshed (store.held place.plain) (cache.content? place)
      else cache.content? place := by
  induction paths generalizing cache with
  | nil => rfl
  | cons path rest inductionHypothesis =>
      have others := fun other member => alike other (List.mem_cons_of_mem path member)
      rw [refreshAll, Traced.value_bind, inductionHypothesis others, content?_refresh,
        List.any_cons]
      by_cases here : path.components = place.components
      · have held : store.held path = store.held place.plain := by
          rw [alike path List.mem_cons_self, SourcePath.plain_congr here]
        simp [here, held]
      · simp [here]

theorem any_trackedUnder (cache : SnapshotCache) (directory place : SourcePath) :
    ((cache.trackedUnder directory).any fun path => path.components == place.components) =
      (place.within directory && cache.isTracked place) := by
  rw [trackedUnder, tracked, PathMap.keys, isTracked, PathMap.contains, List.any_filter,
    List.any_map, Bool.eq_iff_iff]
  simp only [List.any_eq_true, Function.comp, Bool.and_eq_true, beq_iff_eq,
    SourcePath.within_iff]
  constructor
  · rintro ⟨entry, member, inside, same⟩
    exact ⟨same ▸ inside, entry, member, same⟩
  · rintro ⟨inside, entry, member, same⟩
    exact ⟨entry, member, same ▸ inside, same⟩

/-- The change of a directory counts something exactly if a file at or below it is tracked. -/
theorem pos_refreshUnder_iff (store : SourceStore) (directory : SourcePath)
    (cache : SnapshotCache) :
    0 < (cache.refreshUnder store directory).value.1 ↔
      ∃ place : SourcePath, place.within directory ∧ cache.isTracked place := by
  have count : (cache.refreshUnder store directory).value.1 =
      (cache.trackedUnder directory).length := rfl
  rw [count, List.length_pos_iff_exists_mem]
  constructor
  · rintro ⟨key, member⟩
    have listed : ((cache.trackedUnder directory).any fun path =>
        path.components == key.components) = true :=
      List.any_eq_true.mpr ⟨key, member, beq_self_eq_true _⟩
    rw [any_trackedUnder, Bool.and_eq_true] at listed
    exact ⟨key, listed⟩
  · rintro ⟨place, here⟩
    have found := any_trackedUnder cache directory place
    rw [here.1, here.2, Bool.and_true, List.any_eq_true] at found
    obtain ⟨key, member, _⟩ := found
    exact ⟨key, member⟩

/-- The store reads every tracked file as it reads the plain spelling of its place. -/
def ReadsTracked (store : SourceStore) (cache : SnapshotCache) : Prop :=
  ∀ key ∈ cache.tracked, store.held key = store.held key.plain

/-- The change of a directory rereads all places at or below it. -/
theorem content?_refreshUnder (alike : ReadsTracked store cache) (directory place : SourcePath) :
    (cache.refreshUnder store directory).value.2.content? place =
      if place.within directory then reread (store.held place.plain) (cache.content? place)
      else cache.content? place := by
  have below : ∀ path ∈ cache.trackedUnder directory, store.held path = store.held path.plain :=
    fun path member => alike path (List.mem_of_mem_filter member)
  rw [refreshUnder, Traced.value_bind, Traced.value_pure, content?_refreshAll store below,
    any_trackedUnder, isTracked_eq]
  cases place.within directory with
  | false => rfl
  | true => cases cache.content? place <;> rfl

/-- Where nothing is tracked, the change of a directory changes nothing. -/
theorem refreshUnder_eq_self (none : (cache.refreshUnder store directory).value.1 = 0) :
    (cache.refreshUnder store directory).value.2 = cache := by
  have empty : cache.trackedUnder directory = [] := List.length_eq_zero_iff.mp none
  rw [refreshUnder, Traced.value_bind, Traced.value_pure, empty]
  rfl

end SnapshotCache

end ScriptAnalysis
