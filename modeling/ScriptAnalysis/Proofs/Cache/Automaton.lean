import Mathlib.Data.List.Induction
import ScriptAnalysis.Cache.Source
import ScriptAnalysis.Proofs.Cache.Entries

/-!
# One automaton for each place

A `CachedTree` is a source cache beside the tree that it reads from. Each place has an
automaton of its own, which remembers at most one text and sees nothing of any other place:
an action has one of five effects there (`CacheAction.effect`). As long as versions tell the
texts of a run apart, the cache is all these automata side by side: subtree changes, skipped
replacements and different spellings of one place never let one place touch another.
-/

namespace ScriptAnalysis

/-- What happens to the snapshots of a source cache and to the tree they are taken from. -/
inductive CacheAction where
  | mutate (mutation : Mutation)
  | push (path : SourcePath) (text : String)
  | refresh (path : SourcePath)
  | evict (path : SourcePath)
  | changeFile (path : SourcePath)
  | changeDirectory (directory : SourcePath)
  | askSnapshot (path : SourcePath)
  | askVersion (path : SourcePath)
  deriving DecidableEq, Repr

/-- What an action is answered with. -/
inductive CacheAnswer where
  | silence
  | snapshot (found : Option Snapshot)
  | version (found : Option ContentHash)
  | flag (told : Bool)
  deriving DecidableEq, Repr

/-- What an action does at one place. -/
inductive PlaceEffect where
  /-- The place is left alone. -/
  | still
  /-- A text is taken; an empty one stands for what the store holds. -/
  | take (text : String)
  | drop
  /-- What the store holds is taken if something was remembered. -/
  | reread
  /-- What the store holds is taken unless something was remembered. -/
  | load
  deriving DecidableEq, Repr

namespace PlaceEffect

variable {store : SourceStore} {place : SourcePath}

/-- What an effect makes of the text that is remembered for a place. -/
def onText (store : SourceStore) (place : SourcePath) (text : Option String) :
    PlaceEffect → Option String
  | .still => text
  | .take pushed => store.effective place pushed
  | .drop => none
  | .reread => text.bind fun _ => store.held place
  | .load => text.or (store.held place)

/-- What an effect makes of the content of a place. -/
def onContent (store : SourceStore) (place : SourcePath) (old : Option Content) :
    PlaceEffect → Option Content
  | .still => old
  | .take pushed => Content.refreshed (store.effective place pushed) old
  | .drop => none
  | .reread => Content.reread (store.held place) old
  | .load => Content.load (store.held place) old

/-- What is remembered afterwards was remembered before, or the store holds it, or it was
brought. -/
theorem mem_onText {effect : PlaceEffect} {text : Option String} {after : String}
    (member : after ∈ effect.onText store place text) :
    after ∈ text ∨ after ∈ store.held place ∨ effect = .take after ∧ after ≠ "" := by
  cases effect with
  | still => exact .inl member
  | take pushed =>
      rw [onText, SourceStore.effective] at member
      split at member
      · exact .inr (.inl member)
      · next nonempty =>
          cases member
          exact .inr (.inr ⟨rfl, by simpa using nonempty⟩)
  | drop => cases member
  | reread =>
      obtain ⟨_, _, held⟩ := Option.bind_eq_some_iff.mp member
      exact .inr (.inl held)
  | load => exact (Option.or_eq_some_iff.mp member).imp id fun read => .inl read.2

/-- On contents an effect does what it does on texts, if versions tell the text before from the
text after. -/
theorem onContent_map_ofText {effect : PlaceEffect} {text : Option String}
    (apart : ∀ new ∈ effect.onText store place text, ∀ old ∈ text,
      ContentHash.ofText old = ContentHash.ofText new → old = new) :
    effect.onContent store place (text.map Content.ofText) =
      (effect.onText store place text).map Content.ofText := by
  cases effect with
  | still => rfl
  | take pushed => exact Content.refreshed_map_ofText apart
  | drop => rfl
  | reread =>
      refine Content.reread_map_ofText fun new held old there => apart new ?_ old there
      rw [there]
      exact held
  | load => exact Content.load_map_ofText _ _

end PlaceEffect

namespace CacheAction

/-- The texts that an action brings in. -/
def texts : CacheAction → List String
  | .mutate mutation => mutation.texts
  | .push _ text => [text]
  | _ => []

/-- The tree after an action. -/
def grow (tree : Tree) : CacheAction → Tree
  | .mutate mutation => tree.mutate mutation
  | _ => tree

/-- What an action does at a place. -/
def effect (place : SourcePath) : CacheAction → PlaceEffect
  | .mutate _ => .still
  | .push path text => if path.components = place.components then .take text else .still
  | .refresh path => if path.components = place.components then .take "" else .still
  | .evict path => if path.components = place.components then .drop else .still
  | .changeFile path => if path.components = place.components then .reread else .still
  | .changeDirectory directory => if place.within directory then .reread else .still
  | .askSnapshot path | .askVersion path =>
      if path.components = place.components then .load else .still

/-- What an action brings to a place is one of its texts. -/
theorem mem_texts_of_effect {action : CacheAction} {place : SourcePath} {text : String}
    (taken : action.effect place = .take text) (nonempty : text ≠ "") : text ∈ action.texts := by
  cases action with
  | mutate mutation => cases taken
  | push path pushed =>
      rw [effect] at taken
      split at taken
      · cases taken
        exact List.mem_singleton_self _
      · cases taken
  | refresh path =>
      rw [effect] at taken
      split at taken
      · cases taken
        exact absurd rfl nonempty
      · cases taken
  | evict path | changeFile path | changeDirectory path | askSnapshot path | askVersion path =>
      rw [effect] at taken
      split at taken <;> cases taken

end CacheAction

/-- One place by itself: the tree and the text that is remembered for the place. -/
structure PlaceAutomaton where
  tree : Tree
  text : Option String

namespace PlaceAutomaton

/-- Nothing is stored and nothing is remembered. -/
def start : PlaceAutomaton := ⟨Tree.empty, none⟩

/-- One action, as the place sees it. -/
def step (place : SourcePath) (automaton : PlaceAutomaton) (action : CacheAction) :
    PlaceAutomaton :=
  ⟨action.grow automaton.tree,
    (action.effect place).onText automaton.tree.store place automaton.text⟩

/-- Actions in their order. -/
def run (place : SourcePath) (actions : List CacheAction) : PlaceAutomaton :=
  actions.foldl (step place) start

@[simp]
theorem run_concat (place : SourcePath) (actions : List CacheAction) (action : CacheAction) :
    run place (actions ++ [action]) = step place (run place actions) action := by
  rw [run, List.foldl_append]
  rfl

end PlaceAutomaton

/-- A snapshot is found if and only if there is a text, and then it is the capture of the text
under some spelling of the path. -/
def Snapshot.Shows (path : SourcePath) : Option Snapshot → Option String → Prop :=
  Option.Rel fun snapshot text =>
    snapshot.path.components = path.components ∧ snapshot = capture snapshot.path text

theorem Snapshot.Shows.version {path : SourcePath} {found : Option Snapshot} {text : Option String}
    (shows : Shows path found text) : found.map Snapshot.version = text.map ContentHash.ofText := by
  cases shows with
  | none => rfl
  | some same =>
      rw [same.2]
      rfl

theorem Snapshot.Shows.text {path : SourcePath} {found : Option Snapshot} {text : Option String}
    (shows : Shows path found text) : found.map Snapshot.text = text := by
  cases shows with
  | none => rfl
  | some same =>
      rw [same.2]
      rfl

/-- The automata of all places foretell the answer to an action. -/
def CacheAction.Foretells (automata : SourcePath → PlaceAutomaton) (action : CacheAction)
    (answer : CacheAnswer) : Prop :=
  match action with
  | .mutate _ => answer = .silence
  | .push path _ | .refresh path | .askSnapshot path =>
      ∃ found, answer = .snapshot found ∧
        Snapshot.Shows path found ((automata path).step path action).text
  | .askVersion path =>
      answer = .version (((automata path).step path action).text.map ContentHash.ofText)
  | .evict path | .changeFile path => answer = .flag (automata path).text.isSome
  | .changeDirectory directory =>
      ∃ told, answer = .flag told ∧
        (told = true ↔ ∃ place : SourcePath, place.within directory ∧ (automata place).text.isSome)

/-- A source cache beside the tree that it reads from. -/
structure CachedTree where
  tree : Tree
  cache : SourceCache

namespace CachedTree

variable {cached : CachedTree} {actions : List CacheAction} {action : CacheAction}
  {path : SourcePath}

/-- Nothing is stored and nothing is cached. -/
def start : CachedTree := ⟨Tree.empty, SourceCache.empty⟩

/-- The cache's part of an action. -/
def handle (cached : CachedTree) : CacheAction → CacheAnswer × SourceCache
  | .mutate _ => (.silence, cached.cache)
  | .push path text =>
      (cached.cache.setContent cached.tree.store path text).value.map .snapshot id
  | .refresh path => (cached.cache.refresh cached.tree.store path).value.map .snapshot id
  | .evict path => (cached.cache.evict path).map .flag id
  | .changeFile path => (cached.cache.fileChanged cached.tree.store path).value.map .flag id
  | .changeDirectory directory =>
      (cached.cache.directoryChanged cached.tree.store directory).value.map .flag id
  | .askSnapshot path => (cached.cache.snapshot cached.tree.store path).value.map .snapshot id
  | .askVersion path => (cached.cache.version cached.tree.store path).value.map .version id

/-- The answer to an action. -/
def answer (cached : CachedTree) (action : CacheAction) : CacheAnswer :=
  (cached.handle action).1

/-- One action. -/
def step (cached : CachedTree) (action : CacheAction) : CachedTree :=
  ⟨action.grow cached.tree, (cached.handle action).2⟩

/-- Actions in their order. -/
def run (actions : List CacheAction) : CachedTree :=
  actions.foldl step start

@[simp]
theorem run_concat (actions : List CacheAction) (action : CacheAction) :
    run (actions ++ [action]) = (run actions).step action := by
  rw [run, List.foldl_append]
  rfl

/-- The text that is cached for a file. -/
def text? (cached : CachedTree) (path : SourcePath) : Option String :=
  (cached.cache.snapshots.cached? path).map Snapshot.text

/-- The cache is the automata side by side, and everything in it comes from the texts. -/
structure Refines (automata : SourcePath → PlaceAutomaton) (texts : List String)
    (cached : CachedTree) : Prop where
  tree : ∀ place, (automata place).tree = cached.tree
  content : ∀ place,
    cached.cache.snapshots.content? place = (automata place).text.map Content.ofText
  spelled : cached.cache.snapshots.Every SnapshotCache.IsSpelled
  unlisted : cached.cache.directories = DirectoryCache.empty
  written : ∀ file ∈ cached.tree.files, file.2 ∈ texts
  known : ∀ place, ∀ text ∈ (automata place).text, text ∈ texts

theorem refines_start : Refines (fun _ => PlaceAutomaton.start) [] start where
  tree _ := rfl
  content _ := rfl
  spelled := SnapshotCache.every_empty
  unlisted := rfl
  written file member := by cases member
  known place text there := by cases there

variable {automata : SourcePath → PlaceAutomaton} {texts : List String}

theorem Refines.held_known (refines : cached.Refines automata texts) {text : String}
    (held : text ∈ cached.tree.store.held path) : text ∈ texts := by
  obtain ⟨_, file, member, rfl⟩ := Tree.mem_files_of_held held
  exact refines.written file member

/-- What is cached for a file is the capture of the text that its automaton remembers. -/
theorem Refines.shows (refines : cached.Refines automata texts) (path : SourcePath) :
    Snapshot.Shows path (cached.cache.snapshots.cached? path) (automata path).text := by
  have content := refines.content path
  rw [SnapshotCache.content?] at content
  cases found : cached.cache.snapshots.cached? path with
  | none =>
      rw [found, Option.map_none, eq_comm, Option.map_eq_none_iff] at content
      rw [content]
      exact .none
  | some snapshot =>
      rw [found, Option.map_some, eq_comm, Option.map_eq_some_iff] at content
      obtain ⟨text, remembered, same⟩ := content
      rw [remembered]
      obtain ⟨key, here, spelled⟩ := refines.spelled.of_cached found
      refine .some ⟨spelled.trans here, ?_⟩
      simp only [Content.ofText, Snapshot.content, Content.mk.injEq] at same
      obtain ⟨rfl, version, lineStarts⟩ := same
      rw [Snapshot.capture, version, lineStarts]

/-- The content of every place after an action is what the action does there, whether or not
versions tell texts apart. -/
theorem content?_step (cached : CachedTree) (action : CacheAction) (place : SourcePath) :
    (cached.step action).cache.snapshots.content? place =
      (action.effect place).onContent cached.tree.store place
        (cached.cache.snapshots.content? place) := by
  have read : ∀ path : SourcePath, path.components = place.components →
      cached.tree.store.held path = cached.tree.store.held place :=
    fun _ same => cached.tree.held_congr same
  cases action with
  | mutate mutation => rfl
  | push path pushed =>
      refine (SnapshotCache.content?_setContent _ path pushed _ place).trans ?_
      rw [CacheAction.effect]
      split
      · next here => rw [SourceStore.effective, read path here]; rfl
      · rfl
  | refresh path =>
      refine (SnapshotCache.content?_refresh _ path _ place).trans ?_
      rw [CacheAction.effect]
      split
      · next here => rw [read path here]; rfl
      · rfl
  | evict path =>
      refine (SnapshotCache.content?_evict _ path place).trans ?_
      rw [CacheAction.effect]
      split <;> rfl
  | changeFile path =>
      refine (SnapshotCache.content?_fileChanged _ path _ place).trans ?_
      rw [CacheAction.effect]
      split
      · next here => rw [read path here]; rfl
      · rfl
  | changeDirectory directory =>
      have alike : SnapshotCache.ReadsTracked cached.tree.store cached.cache.snapshots :=
        fun key _ => cached.tree.held_congr key.components_plain.symm
      refine (SnapshotCache.content?_refreshUnder alike directory place).trans ?_
      rw [CacheAction.effect]
      split
      · rw [read place.plain place.components_plain]; rfl
      · rfl
  | askSnapshot path | askVersion path =>
      refine (SnapshotCache.content?_snapshot _ path _ place).trans ?_
      rw [CacheAction.effect]
      split
      · next here => rw [read path here]; rfl
      · rfl

theorem Refines.known_step (refines : cached.Refines automata texts) (action : CacheAction)
    (place : SourcePath) {text : String}
    (member : text ∈ ((automata place).step place action).text) : text ∈ texts ++ action.texts := by
  rcases PlaceEffect.mem_onText member with remembered | held | ⟨taken, nonempty⟩
  · exact List.mem_append_left _ (refines.known place text remembered)
  · rw [refines.tree place] at held
    exact List.mem_append_left _ (refines.held_known held)
  · exact List.mem_append_right _ (CacheAction.mem_texts_of_effect taken nonempty)

/-- The content of every place after an action is what its automaton makes of it. -/
theorem Refines.content_step (refines : cached.Refines automata texts)
    (distinct : DistinctVersions (texts ++ action.texts)) (place : SourcePath) :
    (cached.step action).cache.snapshots.content? place =
      ((automata place).step place action).text.map Content.ofText := by
  have apart : ∀ new ∈ ((automata place).step place action).text, ∀ old ∈ (automata place).text,
      ContentHash.ofText old = ContentHash.ofText new → old = new := by
    intro new after old before
    exact distinct old (List.mem_append_left _ (refines.known place old before)) new
      (refines.known_step action place after)
  rw [content?_step, refines.content, ← refines.tree place]
  exact PlaceEffect.onContent_map_ofText apart

theorem Refines.spelled_step (refines : cached.Refines automata texts) (action : CacheAction) :
    (cached.step action).cache.snapshots.Every SnapshotCache.IsSpelled := by
  have spelled := refines.spelled
  have admits := fun path text (_ : cached.tree.store.held path = some text) =>
    SnapshotCache.admits_isSpelled path text
  cases action with
  | mutate mutation => exact spelled
  | push path pushed =>
      exact spelled.setContent_of_admits (admits path) fun _ =>
        SnapshotCache.admits_isSpelled path pushed
  | refresh path => exact spelled.refresh (admits path)
  | evict path => exact spelled.evict path
  | changeFile path => exact spelled.fileChanged_of_admits (admits path)
  | changeDirectory directory =>
      exact spelled.refreshUnder (SnapshotCache.feeds_isSpelled cached.tree.store) directory
  | askSnapshot path | askVersion path => exact spelled.snapshot_of_admits (admits path)

theorem Refines.unlisted_step (refines : cached.Refines automata texts) (action : CacheAction) :
    (cached.step action).cache.directories = DirectoryCache.empty := by
  cases action with
  | changeDirectory directory =>
      show (cached.cache.directories.invalidateUnder directory).2 = DirectoryCache.empty
      rw [refines.unlisted]
      rfl
  | _ => exact refines.unlisted

/-- What one action keeps: the cache stays the automata side by side. -/
theorem Refines.step (refines : cached.Refines automata texts)
    (distinct : DistinctVersions (texts ++ action.texts)) :
    (cached.step action).Refines (fun place => (automata place).step place action)
      (texts ++ action.texts) where
  tree place := congrArg (fun tree => action.grow tree) (refines.tree place)
  content := refines.content_step distinct
  spelled := refines.spelled_step action
  unlisted := refines.unlisted_step action
  written file member := by
    cases action with
    | mutate mutation =>
        rcases Tree.mem_files_mutate member with older | fresh
        · exact List.mem_append_left _ (refines.written file older)
        · exact List.mem_append_right _ fresh
    | _ => exact List.mem_append_left _ (refines.written file member)
  known place _ member := refines.known_step action place member

/-- What a whole run keeps. -/
theorem refines_run (distinct : DistinctVersions (actions.flatMap CacheAction.texts)) :
    (run actions).Refines (fun place => PlaceAutomaton.run place actions)
      (actions.flatMap CacheAction.texts) := by
  -- From the end, since the automata of a run are those of its prefix after one more action.
  induction actions using List.reverseRecOn with
  | nil => exact refines_start
  | append_singleton before action inductionHypothesis =>
      have texts : (before ++ [action]).flatMap CacheAction.texts =
          before.flatMap CacheAction.texts ++ action.texts := by
        rw [List.flatMap_append, List.flatMap_singleton]
      rw [texts] at distinct ⊢
      have earlier := distinct.of_subset (List.subset_append_left _ _)
      simp only [run_concat, PlaceAutomaton.run_concat]
      exact (inductionHypothesis earlier).step distinct

/-- An action is answered as the automata foretell. -/
theorem Refines.foretells (refines : cached.Refines automata texts)
    (distinct : DistinctVersions (texts ++ action.texts)) :
    action.Foretells automata (cached.answer action) := by
  have after := refines.step distinct
  have tracked : ∀ path, cached.cache.snapshots.isTracked path = (automata path).text.isSome := by
    intro path
    rw [SnapshotCache.isTracked_eq, refines.content, Option.isSome_map]
  cases action with
  | mutate mutation => rfl
  | push path pushed =>
      refine ⟨_, rfl, ?_⟩
      show Snapshot.Shows path
        (cached.cache.snapshots.setContent cached.tree.store path pushed).value.1 _
      rw [← SnapshotCache.cached?_setContent_self]
      exact after.shows path
  | refresh path =>
      refine ⟨_, rfl, ?_⟩
      show Snapshot.Shows path
        (cached.cache.snapshots.refresh cached.tree.store path).value.1 _
      rw [← SnapshotCache.cached?_refresh_self]
      exact after.shows path
  | evict path => exact congrArg CacheAnswer.flag (tracked path)
  | changeFile path =>
      have flag : (cached.cache.snapshots.fileChanged cached.tree.store path).value.1 =
          cached.cache.snapshots.isTracked path := by
        rw [SnapshotCache.fileChanged_value]
        split
        · next yes => exact yes.symm
        · next no => exact (Bool.not_eq_true _ ▸ no).symm
      exact congrArg CacheAnswer.flag (flag.trans (tracked path))
  | changeDirectory directory =>
      refine ⟨_, rfl, ?_⟩
      have unlisted : (cached.cache.directories.invalidateUnder directory).1 = 0 := by
        rw [refines.unlisted]
        rfl
      show (decide
          (0 < (cached.cache.snapshots.refreshUnder cached.tree.store directory).value.1) ||
        decide (0 < (cached.cache.directories.invalidateUnder directory).1)) = true ↔ _
      rw [unlisted, Bool.or_eq_true, decide_eq_true_iff, SnapshotCache.pos_refreshUnder_iff]
      simp only [tracked, Nat.lt_irrefl, decide_false, Bool.false_eq_true, or_false]
  | askSnapshot path =>
      refine ⟨_, rfl, ?_⟩
      show Snapshot.Shows path
        (cached.cache.snapshots.snapshot cached.tree.store path).value.1 _
      rw [← SnapshotCache.cached?_snapshot_self]
      exact after.shows path
  | askVersion path =>
      have shows := after.shows path
      have same := SnapshotCache.cached?_snapshot_self cached.tree.store path
        cached.cache.snapshots
      exact congrArg CacheAnswer.version (same ▸ shows).version

/-- As long as versions tell the texts of a run apart, the cached text of every file is what
the file's own automaton makes of the run, and every action of the run is answered as the
automata before it foretell. -/
theorem run_refines_automata (actions : List CacheAction)
    (distinct : DistinctVersions (actions.flatMap CacheAction.texts)) :
    (∀ path, (run actions).text? path = (PlaceAutomaton.run path actions).text) ∧
      ∀ before action, before ++ [action] <+: actions →
        action.Foretells (fun place => PlaceAutomaton.run place before)
          ((run before).answer action) := by
  constructor
  · intro path
    exact ((refines_run distinct).shows path).text
  · intro before action begins
    have known : (before ++ [action]).flatMap CacheAction.texts ⊆
        actions.flatMap CacheAction.texts := by
      intro text member
      obtain ⟨earlier, there, inside⟩ := List.mem_flatMap.mp member
      exact List.mem_flatMap.mpr ⟨earlier, begins.subset there, inside⟩
    have sofar := distinct.of_subset known
    rw [List.flatMap_append, List.flatMap_singleton] at sofar
    exact (refines_run (sofar.of_subset (List.subset_append_left _ _))).foretells sofar

/-- A change above a file that is cached under two spellings shows in that file alone, and
forgetting a file that was never asked for finds nothing. -/
theorem run_refines_automata_two_spellings :
    let actions : List CacheAction :=
      [.mutate (.writeFile ⟨"/p/a.ts"⟩ "old"), .askSnapshot ⟨"/p//a.ts"⟩, .push ⟨"/q"⟩ "pushed",
        .mutate (.writeFile ⟨"/p/a.ts"⟩ "new"), .changeDirectory ⟨"/p/"⟩, .evict ⟨"/p/b.ts"⟩]
    DistinctVersions (actions.flatMap CacheAction.texts) ∧
      (run actions).text? ⟨"/p/./a.ts"⟩ = some "new" ∧
      (run actions).text? ⟨"/q/"⟩ = some "pushed" ∧
      (run actions.dropLast).answer (.evict ⟨"/p/b.ts"⟩) = .flag false := by
  intro actions
  have distinct : DistinctVersions (actions.flatMap CacheAction.texts) := by decide +kernel
  obtain ⟨texts, answers⟩ := run_refines_automata actions distinct
  have forgotten := answers actions.dropLast (.evict ⟨"/p/b.ts"⟩) (by decide +kernel)
  refine ⟨distinct, (texts _).trans ?_, (texts _).trans ?_, forgotten.trans ?_⟩
  · decide +kernel
  · decide +kernel
  · decide +kernel

end CachedTree

end ScriptAnalysis
