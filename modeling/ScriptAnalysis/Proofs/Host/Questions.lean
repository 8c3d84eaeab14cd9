import ScriptAnalysis.Host
import ScriptAnalysis.Proofs.Cache.Exploration
import ScriptAnalysis.Proofs.Cache.Reading
import ScriptAnalysis.Store.Disk

/-!
# Questions to a host

A question may fill the caches of a host, but what it fills in is what was owed anyway. So however
many questions were asked before, every answer is the one that would have been given at first,
except that a snapshot keeps the path by which its file was first asked for, and so what the store
reads under that path. On the way no content is read twice and no directory is listed twice.
Answers about directories need a store that lists places, answers about a file only that the
spellings of its path under which it was asked for are read alike.
-/

namespace ScriptAnalysis

/-- The file that a question is about, if answering it may read the file. -/
def HostQuestion.file? : HostQuestion → Option SourcePath
  | .scriptVersion path => some path
  | .scriptSnapshot path => some path
  | _ => none

namespace Host

variable {store : SourceStore} {path place : SourcePath}

/-- Ask questions one after the other. -/
def askAll (store : SourceStore) : List HostQuestion → Host → Traced Host
  | [], host => pure host
  | question :: rest, host => do
      let (_, next) ← host.answer store question
      askAll store rest next

/-- The answer to the question for the snapshot of a file. -/
def snapshotOf (store : SourceStore) (host : Host) (path : SourcePath) : Option Snapshot :=
  (host.answer store (.scriptSnapshot path)).value.1

/-- The answer to the question for the version of a file. -/
def versionOf (store : SourceStore) (host : Host) (path : SourcePath) : Option ContentHash :=
  (host.answer store (.scriptVersion path)).value.1

/-- The answer to the question whether a path is a directory. -/
def hasDirectory (store : SourceStore) (host : Host) (path : SourcePath) : Bool :=
  (host.answer store (.directoryExists path)).value.1

/-- The answer to the question for the subdirectories of a path. -/
def subdirectoriesOf (store : SourceStore) (host : Host) (path : SourcePath) : List String :=
  (host.answer store (.directories path)).value.1

/-- Both hosts answer alike about all directories. -/
structure ListsAlike (store : SourceStore) (left right : Host) : Prop where
  directoryExists : ∀ path, left.hasDirectory store path = right.hasDirectory store path
  directories : ∀ path, left.subdirectoriesOf store path = right.subdirectoriesOf store path

/-- Both hosts answer alike about a file. -/
structure ReadsAlike (store : SourceStore) (path : SourcePath) (left right : Host) : Prop where
  version : left.versionOf store path = right.versionOf store path
  /-- A snapshot may spell the path of its place in another way. -/
  snapshot : Option.Rel Snapshot.Alike (left.snapshotOf store path) (right.snapshotOf store path)

/-- The questions ask for a file under this path, which the host does not track at first, and the
store has a content there. -/
structure FindsContent (store : SourceStore) (host : Host) (questions : List HostQuestion)
    (path : SourcePath) : Prop where
  asked : ∃ question ∈ questions, question.file? = some path
  finds : host.cache.snapshots.Finds store path

/-- What a question can do: ask for a snapshot, explore a directory, or leave the host as it is and
no more than note a message. -/
theorem answer_cases (store : SourceStore) (host : Host) (question : HostQuestion) :
    let after := host.answer store question
    (∃ path, question.file? = some path ∧
      let read := host.cache.snapshots.snapshot store path
      after.value.2.cache = { host.cache with snapshots := read.value.2 } ∧
        after.events = read.events) ∨
    (∃ path,
      let explored := host.cache.directories.directoryExists store path
      after.value.2.cache = { host.cache with directories := explored.value.2 } ∧
        after.events = explored.events) ∨
    after.value.2.cache = host.cache ∧
      ∀ event ∈ after.events, event.isRead = false ∧ event.isListing = false := by
  have twice : ∀ events : List Event, (events ++ []) ++ [] = events := fun events => by simp
  cases question with
  | scriptVersion path =>
      exact .inl ⟨path, rfl, rfl, (twice _).trans (List.append_nil _)⟩
  | scriptSnapshot path => exact .inl ⟨path, rfl, rfl, twice _⟩
  | directoryExists path => exact .inr (.inl ⟨path, rfl, twice _⟩)
  | directories path => exact .inr (.inl ⟨path, rfl, (twice _).trans (List.append_nil _)⟩)
  | trace message | complaint message =>
      refine .inr (.inr ⟨rfl, fun event member => ?_⟩)
      cases List.mem_singleton.mp member
      exact ⟨rfl, rfl⟩
  | _ => exact .inr (.inr ⟨rfl, nofun⟩)

/-- What the host answers about a file is what its cache owes to it. -/
theorem snapshotOf_eq (store : SourceStore) (host : Host) (path : SourcePath) :
    host.snapshotOf store path = host.cache.snapshots.snapshot? store path :=
  SnapshotCache.snapshot_eq store path host.cache.snapshots

/-- The version of a file is the version of its snapshot. -/
theorem versionOf_eq_map (host : Host) (store : SourceStore) (path : SourcePath) :
    host.versionOf store path = (host.snapshotOf store path).map Snapshot.version := rfl

/-- What the host answers about a directory is what its cache owes to it. -/
theorem hasDirectory_eq (lists : store.ListsPlaces) (host : Host) (path : SourcePath) :
    host.hasDirectory store path = (host.cache.directories.listing? store path).isSome :=
  (DirectoryCache.directoryExists_eq lists path host.cache.directories).1

theorem subdirectoriesOf_eq (lists : store.ListsPlaces) (host : Host) (path : SourcePath) :
    host.subdirectoriesOf store path = (host.cache.directories.listing? store path).getD [] :=
  (DirectoryCache.list_eq lists path host.cache.directories).1

/-- One question leaves every listing that is owed as it was. -/
theorem sameListings_answer (lists : store.ListsPlaces) (host : Host) (question : HostQuestion) :
    DirectoryCache.SameListings store (host.answer store question).value.2.cache.directories
      host.cache.directories := by
  rcases answer_cases store host question with ⟨_, _, after, _⟩ | ⟨path, after, _⟩ | ⟨after, _⟩
  · rw [after]
    exact fun _ => rfl
  · rw [after]
    exact (DirectoryCache.directoryExists_eq lists path host.cache.directories).2
  · rw [after]
    exact fun _ => rfl

/-- After one question a path is owed the snapshot that it was owed, or the one that the asked
spelling of its place was owed for the content there. -/
theorem snapshotOf_answer (store : SourceStore) (host : Host) (question : HostQuestion)
    (path : SourcePath) :
    ∃ spelling, spelling.components = path.components ∧
      (spelling = path ∨ host.FindsContent store [question] spelling) ∧
      (host.answer store question).value.2.snapshotOf store path =
        host.snapshotOf store spelling := by
  simp only [snapshotOf_eq]
  rcases answer_cases store host question with ⟨file, asked, after, _⟩ | ⟨_, after, _⟩ | ⟨after, _⟩
  · rw [after]
    rcases SnapshotCache.snapshot?_snapshot store file host.cache.snapshots path with
      owed | ⟨same, finds, owed⟩
    · exact ⟨path, rfl, .inl rfl, owed⟩
    · exact ⟨file, same, .inr ⟨⟨question, List.mem_singleton_self _, asked⟩, finds⟩, owed⟩
  · exact ⟨path, rfl, .inl rfl, by rw [after]⟩
  · exact ⟨path, rfl, .inl rfl, by rw [after]⟩

/-- One question pays for the reading of a content. -/
theorem fills_isContentReadAt (store : SourceStore) (place : SourcePath) (host : Host)
    (question : HostQuestion) :
    Event.Fills (Event.isContentReadAt store place) (host.answer store question).events
      (host.cache.snapshots.isTracked place)
      ((host.answer store question).value.2.cache.snapshots.isTracked place) := by
  rcases answer_cases store host question with
    ⟨file, _, after, events⟩ | ⟨path, after, events⟩ | ⟨after, quiet⟩
  · rw [after, events]
    exact SnapshotCache.fills_snapshot store place file _
  · rw [after, events]
    refine Event.fills_of_none fun event member => ?_
    rcases DirectoryCache.mem_events_explore member with ⟨_, rfl⟩ | ⟨_, _, rfl⟩ <;> rfl
  · rw [after]
    refine Event.fills_of_none fun event member => ?_
    cases event <;> first | rfl | cases (quiet _ member).1

/-- One question pays for the listing of a directory. -/
theorem fills_isListingAt (lists : store.ListsPlaces) (place : SourcePath) (host : Host)
    (question : HostQuestion) :
    Event.Fills (Event.isListingAt place) (host.answer store question).events
      (host.cache.directories.listings.contains place)
      ((host.answer store question).value.2.cache.directories.listings.contains place) := by
  rcases answer_cases store host question with
    ⟨file, _, after, events⟩ | ⟨path, after, events⟩ | ⟨after, quiet⟩
  · rw [after, events]
    refine Event.fills_of_none fun event member => ?_
    rcases SnapshotCache.mem_events_snapshot member with rfl | ⟨_, rfl⟩ <;> rfl
  · rw [after, events]
    exact DirectoryCache.fills_explore lists place _ path _
  · rw [after]
    refine Event.fills_of_none fun event member => ?_
    cases event <;> first | rfl | cases (quiet _ member).2

/-- What every question pays for, a sequence of questions pays for. -/
theorem fills_askAll {counts : Event → Bool} {filled : Host → Bool}
    (fills : ∀ host question, Event.Fills counts (host.answer store question).events (filled host)
      (filled (host.answer store question).value.2)) (questions : List HostQuestion) (host : Host) :
    Event.Fills counts (askAll store questions host).events (filled host)
      (filled (askAll store questions host).value) := by
  induction questions generalizing host with
  | nil => exact Event.fills_nil _ _
  | cons question rest inductionHypothesis =>
      exact (fills host question).append (inductionHypothesis _)

theorem sameListings_askAll (lists : store.ListsPlaces) (questions : List HostQuestion)
    (host : Host) :
    DirectoryCache.SameListings store (askAll store questions host).value.cache.directories
      host.cache.directories := by
  induction questions generalizing host with
  | nil => exact fun _ => rfl
  | cons question rest inductionHypothesis =>
      exact fun path => (inductionHypothesis _ path).trans
        (sameListings_answer lists host question path)

/-- What is found after a question could be found before it. -/
theorem FindsContent.of_answer {host : Host} {question : HostQuestion}
    {questions : List HostQuestion}
    (finds : (host.answer store question).value.2.FindsContent store questions path) :
    host.FindsContent store (question :: questions) path where
  asked := by
    obtain ⟨other, member, asks⟩ := finds.asked
    exact ⟨other, List.mem_cons_of_mem _ member, asks⟩
  finds := by
    refine ⟨Bool.eq_false_iff.mpr fun tracked => ?_, finds.finds.held⟩
    have kept := (fills_isContentReadAt store path host question).eq_true
      (by rw [tracked]; exact Nat.lt_add_left _ Nat.one_pos)
    exact Bool.false_ne_true (finds.finds.untracked.symm.trans kept)

/-- After any questions a path is owed the snapshot that it was owed, or the one that a spelling of
its place was owed for the content that was found there. -/
theorem snapshotOf_askAll (store : SourceStore) (questions : List HostQuestion) (host : Host)
    (path : SourcePath) :
    ∃ spelling, spelling.components = path.components ∧
      (spelling = path ∨ host.FindsContent store questions spelling) ∧
      (askAll store questions host).value.snapshotOf store path =
        host.snapshotOf store spelling := by
  induction questions generalizing host with
  | nil => exact ⟨path, rfl, .inl rfl, rfl⟩
  | cons question rest inductionHypothesis =>
      obtain ⟨later, samePlace, origin, owedLater⟩ :=
        inductionHypothesis (host.answer store question).value.2
      obtain ⟨first, sameFirst, originFirst, owedFirst⟩ :=
        snapshotOf_answer store host question later
      refine ⟨first, sameFirst.trans samePlace, ?_, owedLater.trans owedFirst⟩
      rcases originFirst with rfl | ⟨⟨other, member, asks⟩, finds⟩
      · exact origin.imp_right FindsContent.of_answer
      · cases List.mem_singleton.mp member
        exact .inr ⟨⟨question, List.mem_cons_self, asks⟩, finds⟩

/-- A host that was asked any questions answers every question as it would have answered it at
first. About directories this holds over a store that lists places, and about a file if the store
reads its path like every spelling of it under which a content is found. The path of a snapshot
may be spelled in another way, but only if a content is found under another spelling. No content
is read twice, and no directory is listed twice. -/
theorem questions_leave_answers (store : SourceStore) (host : Host)
    (questions : List HostQuestion) :
    let asked := askAll store questions host
    (store.ListsPlaces → asked.value.ListsAlike store host ∧
      ∀ place, asked.events.countP (Event.isListingAt place) ≤ 1) ∧
    (∀ path, (∀ spelling, host.FindsContent store questions spelling →
        spelling.components = path.components → store.held spelling = store.held path) →
      asked.value.ReadsAlike store path host) ∧
    (∀ path, (∀ spelling, host.FindsContent store questions spelling →
        spelling.components = path.components → spelling = path) →
      asked.value.snapshotOf store path = host.snapshotOf store path) ∧
    (∀ path, asked.value.versionOf store path =
      (asked.value.snapshotOf store path).map Snapshot.version) ∧
    ∀ place, asked.events.countP (Event.isContentReadAt store place) ≤ 1 := by
  intro asked
  have alike : ∀ path, (∀ spelling, host.FindsContent store questions spelling →
      spelling.components = path.components → store.held spelling = store.held path) →
      Option.Rel Snapshot.Alike (asked.value.snapshotOf store path)
        (host.snapshotOf store path) := by
    intro path spelled
    obtain ⟨spelling, same, origin, answered⟩ := snapshotOf_askAll store questions host path
    rw [answered, snapshotOf_eq, snapshotOf_eq]
    refine SnapshotCache.snapshot?_alike _ same ?_
    rcases origin with rfl | finds
    · rfl
    · exact spelled spelling finds same
  refine ⟨fun lists => ⟨⟨fun path => ?_, fun path => ?_⟩, fun place => ?_⟩,
    fun path spelled => ⟨?_, alike path spelled⟩, fun path spelled => ?_,
    asked.value.versionOf_eq_map store, fun place => ?_⟩
  · rw [hasDirectory_eq lists, hasDirectory_eq lists,
      sameListings_askAll lists questions host path]
  · rw [subdirectoriesOf_eq lists, subdirectoriesOf_eq lists,
      sameListings_askAll lists questions host path]
  · exact (fills_askAll (fills_isListingAt lists place) questions host).countP_le_one
  · rw [versionOf_eq_map, versionOf_eq_map]
    exact Snapshot.version_of_alike (alike path spelled)
  · obtain ⟨spelling, same, rfl | finds, answered⟩ := snapshotOf_askAll store questions host path
    · exact answered
    · rwa [spelled spelling finds same] at answered
  · exact (fills_askAll (fills_isContentReadAt store place) questions host).countP_le_one

/-- The host of a project over a tree that has since become another one: a listing and a snapshot
that are behind stay what they were, and new questions do not show. Over a disk a file is asked for
under two spellings, one of which leads to no file. -/
theorem questions_leave_answers_stale_host :
    let earlier := (Tree.built
      [.createDirectory ⟨"/p/old"⟩, .writeFile ⟨"/p/a.ts"⟩ "let a;"]).store
    let store := (Tree.built [.writeFile ⟨"/p/lib/b.ts"⟩ "let b;"]).store
    let disk := ((Disk.empty []).writeFile ⟨"/p/lib/b.ts"⟩ "let b;".toUTF8).store
    let host := (askAll earlier [.directories ⟨"/p"⟩, .scriptVersion ⟨"/p/a.ts"⟩]
      (create ⟨"/p"⟩ CompilationSettings.empty HostOptions.standard)).value
    let asked := askAll store [.directories ⟨"/"⟩, .scriptSnapshot ⟨"/p/lib//b.ts"⟩] host
    let askedDisk := askAll disk
      [.scriptVersion ⟨"/p/lib/b.ts/"⟩, .scriptSnapshot ⟨"/p/lib//b.ts"⟩] host
    (store.ListsPlaces ∧ asked.value.ListsAlike store host) ∧
      asked.value.ReadsAlike store ⟨"/p/lib/b.ts"⟩ host ∧
      asked.value.snapshotOf store ⟨"/p/a.ts"⟩ = some (Snapshot.capture ⟨"/p/a.ts"⟩ "let a;") ∧
      asked.value.subdirectoriesOf store ⟨"/p"⟩ = ["old"] ∧
      asked.value.subdirectoriesOf store ⟨"/"⟩ = ["p"] ∧
      askedDisk.value.ReadsAlike disk ⟨"/p/lib/b.ts"⟩ host := by
  intro earlier store disk host asked askedDisk
  have lists : store.ListsPlaces := (Tree.isWritten_built _).listsPlaces
  obtain ⟨listed, read, spelled, _, _⟩ := questions_leave_answers store host
    [.directories ⟨"/"⟩, .scriptSnapshot ⟨"/p/lib//b.ts"⟩]
  obtain ⟨_, readDisk, _, _, _⟩ := questions_leave_answers disk host
    [.scriptVersion ⟨"/p/lib/b.ts/"⟩, .scriptSnapshot ⟨"/p/lib//b.ts"⟩]
  have alike := (listed lists).1
  refine ⟨⟨lists, alike⟩, read _ ?_, ?_, ?_, ?_, readDisk _ ?_⟩
  · exact fun spelling _ same => Tree.held_congr _ same
  · refine (spelled ⟨"/p/a.ts"⟩ ?_).trans (by decide +kernel)
    rintro spelling ⟨⟨question, member, asks⟩, -⟩ same
    simp only [List.mem_cons, List.not_mem_nil, or_false] at member
    rcases member with rfl | rfl
    · cases asks
    · cases asks
      exact absurd same (by decide +kernel)
  · exact (alike.directories ⟨"/p"⟩).trans (by decide +kernel)
  · exact (alike.directories ⟨"/"⟩).trans (by decide +kernel)
  · rintro spelling ⟨⟨question, member, asks⟩, finds⟩ -
    simp only [List.mem_cons, List.not_mem_nil, or_false] at member
    rcases member with rfl | rfl
    · cases asks
      exact absurd finds.held (by decide +kernel)
    · cases asks
      decide +kernel

/-- Over a tree a snapshot spells its path as it was asked for at first. Over a disk, a path with a
separator behind it leads to no file, but it is answered once the file is tracked. -/
theorem snapshotOf_shows_earlier_spelling :
    let host := create ⟨"/p"⟩ CompilationSettings.empty HostOptions.standard
    let tree := (Tree.built [.writeFile ⟨"/p/a.ts"⟩ "let a;"]).store
    let disk := ((Disk.empty []).writeFile ⟨"/p/a.ts"⟩ "let a;".toUTF8).store
    (askAll tree [.scriptSnapshot ⟨"/p//a.ts"⟩] host).value.snapshotOf tree ⟨"/p/a.ts"⟩ ≠
        host.snapshotOf tree ⟨"/p/a.ts"⟩ ∧
      (askAll disk [.scriptSnapshot ⟨"/p/a.ts"⟩] host).value.snapshotOf disk ⟨"/p/a.ts/"⟩ ≠
        host.snapshotOf disk ⟨"/p/a.ts/"⟩ := by
  decide +kernel

end Host

end ScriptAnalysis
