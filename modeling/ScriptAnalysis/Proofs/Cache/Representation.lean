import Mathlib.Data.List.Induction
import ScriptAnalysis.Cache.Source
import ScriptAnalysis.Proofs.Cache.Entries
import ScriptAnalysis.Proofs.Snapshot.Lines
import ScriptAnalysis.Proofs.Text.Bytes

/-!
# What a source cache holds

A `CacheCall` is anything that can be asked of a source cache, and in a run every call finds a
store of its own. Whatever the stores hold, an entry is whole: its snapshot has a text, the
version and the line index of that text, and the place of its key. A text gets in on three ways,
by a push, by a first read and by a read again, and none of them lets an empty one pass.
-/

namespace ScriptAnalysis

namespace Text

/-- The offset after each line feed in the bytes of a text. -/
def feedEnds (text : String) : List Nat :=
  (text.toUTF8.data.toList.idxsOf (byteOf '\n')).map (· + 1)

example : feedEnds "a\nü\nb" = [2, 5] := by decide +kernel

/-- A character that is no line feed has no line feed among its bytes. -/
theorem idxsOf_feed_encoded {c : Char} (other : c ≠ '\n') (start : Nat) :
    (String.utf8EncodeChar c).idxsOf (byteOf '\n') start = [] := by
  refine List.findIdxs_eq_nil_iff.mpr fun b member => ?_
  have alike : (b == byteOf '\n') = (c == '\n') := alike_byteOf (by decide) c b member
  simpa [alike] using other

/-- The line feeds among the bytes are those among the characters. -/
theorem idxsOf_feed_bytes (start : Nat) (chars : List Char) :
    ((bytes chars).idxsOf (byteOf '\n') start).map (· + 1) =
      Snapshot.breaksFrom start chars := by
  induction chars generalizing start with
  | nil => rfl
  | cons c rest inductionHypothesis =>
      have parts : (bytes (c :: rest)).idxsOf (byteOf '\n') start =
          (String.utf8EncodeChar c).idxsOf (byteOf '\n') start ++
            (bytes rest).idxsOf (byteOf '\n') (start + c.utf8Size) := by
        rw [bytes_cons, ← String.length_utf8EncodeChar]
        exact List.findIdxs_append
      rw [parts, List.map_append, inductionHypothesis, Snapshot.breaksFrom_cons]
      split
      · next feed =>
          subst feed
          rfl
      · next other => rw [idxsOf_feed_encoded other, List.map_nil, List.nil_append]

end Text

/-- The line index of a text can be read off its bytes. -/
theorem Snapshot.lineStartsOf_eq_feedEnds (text : String) :
    lineStartsOf text = 0 :: Text.feedEnds text := by
  rw [Text.feedEnds, Text.toList_toUTF8, Text.idxsOf_feed_bytes]
  rfl

/-- What a store holds for analysis is not empty. -/
theorem SourceStore.ne_empty_of_held {store : SourceStore} {path : SourcePath} {text : String}
    (held : store.held path = some text) : text ≠ "" := by
  obtain ⟨_, nonempty⟩ := Option.filter_eq_some_iff.mp held
  simpa using nonempty

namespace SnapshotCache

variable {store : SourceStore} {path : SourcePath} {text : String} {cache : SnapshotCache}

/-- The snapshot has a text, what is computed from it, and a spelling of the key's place. -/
structure IsWhole (key : SourcePath) (snapshot : Snapshot) : Prop where
  nonempty : snapshot.text ≠ ""
  spelled : snapshot.path.components = key.components
  version : snapshot.version = ContentHash.ofText snapshot.text
  lineStarts : snapshot.lineStarts = 0 :: Text.feedEnds snapshot.text

/-- A whole snapshot is the capture of its text under its own path. -/
theorem IsWhole.eq_capture {key : SourcePath} {snapshot : Snapshot} (whole : IsWhole key snapshot) :
    snapshot = Snapshot.capture snapshot.path snapshot.text := by
  obtain ⟨path, version, text, lineStarts⟩ := snapshot
  have versions : version = ContentHash.ofText text := whole.version
  have starts : lineStarts = Snapshot.lineStartsOf text :=
    whole.lineStarts.trans (Snapshot.lineStartsOf_eq_feedEnds text).symm
  rw [versions, starts]
  rfl

/-- Any text that is not empty can be captured, also under an older spelling of its place. -/
theorem admits_isWhole (path : SourcePath) (nonempty : text ≠ "") :
    Admits IsWhole path text := by
  rintro key (rfl | ⟨same, _⟩)
  · exact ⟨nonempty, rfl, rfl, Snapshot.lineStartsOf_eq_feedEnds text⟩
  · exact ⟨nonempty, same.symm, rfl, Snapshot.lineStartsOf_eq_feedEnds text⟩

theorem ascending_keep (ascending : cache.entries.Ascending) (path : SourcePath) (text : String) :
    (cache.keep path text).2.entries.Ascending := by
  rw [keep]
  split
  · split
    · exact ascending
    · exact ascending.insert path _
  · exact ascending.insert path _

/-- All that ever happens to a snapshot cache is that it keeps a text that is not empty or that
it forgets a file. The property survives both. -/
structure Survives (property : SnapshotCache → Prop) : Prop where
  keep : ∀ {cache path text}, property cache → text ≠ "" → property (cache.keep path text).2
  evict : ∀ {cache path}, property cache → property (cache.evict path).2

namespace Survives

variable {property : SnapshotCache → Prop}

theorem refresh (survives : Survives property) (holds : property cache) (store : SourceStore)
    (path : SourcePath) : property (cache.refresh store path).value.2 := by
  rw [SnapshotCache.refresh, Traced.value_bind, SourceStore.value_readNonEmpty,
    ← SourceStore.held]
  cases held : store.held path with
  | some text => exact survives.keep holds (SourceStore.ne_empty_of_held held)
  | none =>
      cases tracked : cache.isTracked path with
      | true => simpa [SnapshotCache.evict, tracked] using survives.evict holds
      | false => simpa [SnapshotCache.evict, tracked] using holds

theorem refreshAll (survives : Survives property) (holds : property cache) (store : SourceStore)
    (paths : List SourcePath) : property (SnapshotCache.refreshAll store paths cache).value := by
  induction paths generalizing cache with
  | nil => exact holds
  | cons path rest inductionHypothesis =>
      rw [SnapshotCache.refreshAll, Traced.value_bind]
      exact inductionHypothesis (survives.refresh holds store path)

theorem setContent (survives : Survives property) (holds : property cache) (store : SourceStore)
    (path : SourcePath) (text : String) :
    property (cache.setContent store path text).value.2 := by
  rw [SnapshotCache.setContent]
  split
  · exact survives.refresh holds store path
  · next nonempty => exact survives.keep holds (by simpa using nonempty)

theorem fileChanged (survives : Survives property) (holds : property cache) (store : SourceStore)
    (path : SourcePath) : property (cache.fileChanged store path).value.2 := by
  rw [fileChanged_value]
  split
  · exact survives.refresh holds store path
  · exact holds

theorem snapshot (survives : Survives property) (holds : property cache) (store : SourceStore)
    (path : SourcePath) : property (cache.snapshot store path).value.2 := by
  rw [SnapshotCache.snapshot]
  split
  · exact holds
  · exact survives.refresh holds store path

end Survives

/-- Entries are whole and in strictly ascending order. -/
structure IsSound (cache : SnapshotCache) : Prop where
  whole : cache.Every IsWhole
  ascending : cache.entries.Ascending

theorem isSound_empty : empty.IsSound :=
  ⟨every_empty, PathMap.ascending_empty⟩

theorem survives_isSound : Survives IsSound where
  keep sound nonempty :=
    ⟨sound.whole.keep (admits_isWhole _ nonempty), ascending_keep sound.ascending _ _⟩
  evict sound := ⟨sound.whole.evict _, sound.ascending.erase _⟩

end SnapshotCache

/-- What can be asked of a source cache. -/
inductive CacheCall where
  | setContent (path : SourcePath) (text : String)
  | refresh (path : SourcePath)
  | evict (path : SourcePath)
  | fileChanged (path : SourcePath)
  | directoryChanged (directory : SourcePath)
  | snapshot (path : SourcePath)
  | version (path : SourcePath)
  | directoryExists (path : SourcePath)
  | subdirectories (path : SourcePath)

/-- The cache after a call. -/
def CacheCall.perform (store : SourceStore) (cache : SourceCache) : CacheCall → SourceCache
  | .setContent path text => (cache.setContent store path text).value.2
  | .refresh path => (cache.refresh store path).value.2
  | .evict path => (cache.evict path).2
  | .fileChanged path => (cache.fileChanged store path).value.2
  | .directoryChanged directory => (cache.directoryChanged store directory).value.2
  | .snapshot path => (cache.snapshot store path).value.2
  | .version path => (cache.version store path).value.2
  | .directoryExists path => (cache.directoryExists store path).value.2
  | .subdirectories path => (cache.subdirectories store path).value.2

namespace SourceCache

/-- The cache after calls that each find a store of their own. -/
def run (calls : List (SourceStore × CacheCall)) : SourceCache :=
  calls.foldl (fun cache call => call.2.perform call.1 cache) SourceCache.empty

theorem run_concat (calls : List (SourceStore × CacheCall)) (store : SourceStore)
    (call : CacheCall) :
    run (calls ++ [(store, call)]) = call.perform store (run calls) := by
  rw [run, List.foldl_append]
  rfl

/-- Each call does no more to the snapshots than keeping and forgetting. -/
theorem snapshots_perform {property : SnapshotCache → Prop}
    (survives : SnapshotCache.Survives property) (store : SourceStore) {cache : SourceCache}
    (holds : property cache.snapshots) (call : CacheCall) :
    property (call.perform store cache).snapshots := by
  cases call with
  | setContent path text => exact survives.setContent holds store path text
  | refresh path => exact survives.refresh holds store path
  | evict path => exact survives.evict holds
  | fileChanged path => exact survives.fileChanged holds store path
  | directoryChanged directory => exact survives.refreshAll holds store _
  | snapshot path | version path => exact survives.snapshot holds store path
  | directoryExists path | subdirectories path => exact holds

/-- What survives keeping and forgetting survives every run. -/
theorem snapshots_run {property : SnapshotCache → Prop}
    (survives : SnapshotCache.Survives property) (start : property SnapshotCache.empty)
    (calls : List (SourceStore × CacheCall)) : property (run calls).snapshots := by
  induction calls using List.reverseRecOn with
  | nil => exact start
  | append_singleton before call inductionHypothesis =>
      rw [run_concat before call.1 call.2]
      exact snapshots_perform survives call.1 inductionHypothesis call.2

/-- After every run of calls over changing stores each entry has a text that is not empty, a path
at the place of its key, and the version and the line index of its text. The tracked files are
in strictly ascending order and no place occurs twice. -/
theorem entries_whole_and_tracked_ascending (calls : List (SourceStore × CacheCall)) :
    (∀ entry ∈ (run calls).snapshots.entries.entries,
      SnapshotCache.IsWhole entry.1 entry.2) ∧
    ((run calls).tracked.Pairwise fun left right => left.order right = .lt) ∧
    (run calls).tracked.Pairwise fun left right => left.components ≠ right.components := by
  have sound := snapshots_run SnapshotCache.survives_isSound SnapshotCache.isSound_empty calls
  have ascending := sound.ascending.keys
  exact ⟨sound.whole, ascending, ascending.imp SourcePath.components_ne_of_order_lt⟩

end SourceCache

end ScriptAnalysis
