import ScriptAnalysis.PathMap
import ScriptAnalysis.Proofs.Path.Order

/-!
# Laws of maps keyed by paths

A map is observed by `find?`, which treats all spellings of a place alike. The look-up laws
hold of every list of entries. `Ascending` is what the operations keep of the order; in an
ascending map every entry is the one that is found, and replacing a value keeps all keys.
-/

namespace ScriptAnalysis.PathMap

variable {α : Type} {map : PathMap α} {path place : SourcePath} {value : α}

@[simp]
theorem find?_empty (path : SourcePath) : (empty : PathMap α).find? path = none := rfl

theorem find?_congr (map : PathMap α) (same : path.components = place.components) :
    map.find? path = map.find? place := by
  rw [find?, find?, same]

theorem contains_eq_isSome (map : PathMap α) (path : SourcePath) :
    map.contains path = (map.find? path).isSome := by
  rw [contains, find?, Option.isSome_map, List.isSome_find?]

theorem find?_cons (key : SourcePath) (value : α) (rest : List (SourcePath × α))
    (place : SourcePath) :
    (PathMap.mk ((key, value) :: rest)).find? place =
      if key.components = place.components then some value
      else (PathMap.mk rest).find? place := by
  by_cases same : key.components = place.components <;> simp [find?, same]

/-- Setting a value is seen at its own place only. -/
theorem find?_insert (map : PathMap α) (path : SourcePath) (value : α) (place : SourcePath) :
    (map.insert path value).find? place =
      if path.components = place.components then some value else map.find? place := by
  obtain ⟨entries⟩ := map
  simp only [insert]
  induction entries with
  | nil => rw [insertEntry, find?_cons]
  | cons entry rest inductionHypothesis =>
      obtain ⟨key, old⟩ := entry
      rw [insertEntry]
      split
      · rw [find?_cons]
      · next equal =>
          have same := SourcePath.order_eq_iff.mp equal
          simp only [find?_cons, same]
          split <;> rfl
      · next after =>
          have differ : path.components ≠ key.components := fun same => by
            rw [SourcePath.order_eq_iff.mpr same] at after
            cases after
          simp only [find?_cons, inductionHypothesis]
          by_cases same : path.components = place.components
          · rw [if_pos same, if_pos same, if_neg fun other => differ (same.trans other.symm)]
          · rw [if_neg same, if_neg same]

/-- Removing an entry is seen at its own place only. -/
theorem find?_erase (map : PathMap α) (path place : SourcePath) :
    (map.erase path).find? place =
      if path.components = place.components then none else map.find? place := by
  obtain ⟨entries⟩ := map
  simp only [erase]
  induction entries with
  | nil => simp [find?]
  | cons entry rest inductionHypothesis =>
      obtain ⟨key, old⟩ := entry
      by_cases gone : key.components = path.components
      · simp only [gone, bne_self_eq_false, Bool.false_eq_true, not_false_eq_true,
          List.filter_cons_of_neg, inductionHypothesis, find?_cons]
        split <;> rfl
      · rw [List.filter_cons_of_pos (by simpa using gone), find?_cons, find?_cons,
          inductionHypothesis]
        by_cases same : path.components = place.components
        · rw [if_pos same, if_neg fun other => gone (other.trans same.symm), if_pos same]
        · rw [if_neg same, if_neg same]

/-- A test that treats all spellings of a place alike filters the look-ups. -/
theorem find?_filterKeys {keep : SourcePath → Bool}
    (alike : ∀ left right, left.components = right.components → keep left = keep right)
    (map : PathMap α) (place : SourcePath) :
    (map.filterKeys keep).find? place = if keep place then map.find? place else none := by
  obtain ⟨entries⟩ := map
  simp only [filterKeys]
  induction entries with
  | nil => simp [find?]
  | cons entry rest inductionHypothesis =>
      obtain ⟨key, old⟩ := entry
      by_cases same : key.components = place.components
      · by_cases kept : keep place = true
        · rw [List.filter_cons_of_pos (by simpa [alike key place same] using kept), find?_cons,
            find?_cons, if_pos same, if_pos kept, if_pos same]
        · rw [List.filter_cons_of_neg (by simpa [alike key place same] using kept),
            inductionHypothesis, if_neg kept, if_neg kept]
      · rw [find?_cons, if_neg same, ← inductionHypothesis]
        by_cases kept : keep key = true
        · rw [List.filter_cons_of_pos (by simpa using kept), find?_cons, if_neg same]
        · rw [List.filter_cons_of_neg (by simpa using kept)]

/-- What is found is an entry under some spelling of the place. -/
theorem mem_of_find? (found : map.find? place = some value) :
    ∃ key, (key, value) ∈ map.entries ∧ key.components = place.components := by
  obtain ⟨entry, first, rfl⟩ := Option.map_eq_some_iff.mp found
  exact ⟨entry.1, List.mem_of_find?_eq_some first, by simpa using List.find?_some first⟩

/-- The paths are in strictly ascending order, so no place has two entries. -/
def Ascending (map : PathMap α) : Prop :=
  map.entries.Pairwise fun left right => left.1.order right.1 = .lt

theorem ascending_empty : (empty : PathMap α).Ascending := List.Pairwise.nil

/-- An entry after insertion is the new one, with the key's old spelling if there was one,
or was there before. -/
theorem mem_insertEntry {entries : List (SourcePath × α)} {entry : SourcePath × α}
    (member : entry ∈ insertEntry path value entries) :
    (entry.2 = value ∧ (entry.1 = path ∨
      ∃ old, (entry.1, old) ∈ entries ∧ entry.1.components = path.components)) ∨
      entry ∈ entries := by
  induction entries with
  | nil =>
      rw [insertEntry, List.mem_singleton] at member
      subst member
      exact .inl ⟨rfl, .inl rfl⟩
  | cons head rest inductionHypothesis =>
      obtain ⟨key, old⟩ := head
      rw [insertEntry] at member
      split at member
      · rcases List.mem_cons.mp member with rfl | older
        · exact .inl ⟨rfl, .inl rfl⟩
        · exact .inr older
      · next equal =>
          rcases List.mem_cons.mp member with rfl | older
          · exact .inl ⟨rfl, .inr ⟨old, by simp, (SourcePath.order_eq_iff.mp equal).symm⟩⟩
          · exact .inr (List.mem_cons_of_mem _ older)
      · rcases List.mem_cons.mp member with rfl | later
        · exact .inr (by simp)
        · rcases inductionHypothesis later with ⟨same, spelled⟩ | older
          · refine .inl ⟨same, spelled.imp_right ?_⟩
            rintro ⟨before, there, spelling⟩
            exact ⟨before, List.mem_cons_of_mem _ there, spelling⟩
          · exact .inr (List.mem_cons_of_mem _ older)

theorem Ascending.insert (ascending : map.Ascending) (path : SourcePath) (value : α) :
    (map.insert path value).Ascending := by
  obtain ⟨entries⟩ := map
  simp only [Ascending, PathMap.insert] at *
  induction entries with
  | nil => exact List.pairwise_singleton _ _
  | cons head rest inductionHypothesis =>
      obtain ⟨key, old⟩ := head
      obtain ⟨first, others⟩ := List.pairwise_cons.mp ascending
      rw [insertEntry]
      split
      · next before =>
          refine List.pairwise_cons.mpr ⟨fun entry member => ?_, ascending⟩
          rcases List.mem_cons.mp member with rfl | later
          · exact before
          · exact SourcePath.order_trans before (first entry later)
      · exact List.pairwise_cons.mpr ⟨first, others⟩
      · next after =>
          have after : key.order path = .lt := by rw [SourcePath.order_swap, after]; rfl
          refine List.pairwise_cons.mpr ⟨fun entry member => ?_, inductionHypothesis others⟩
          rcases mem_insertEntry member with ⟨_, rfl | ⟨before, there, _⟩⟩ | there
          · exact after
          · exact first (_, before) there
          · exact first entry there

theorem Ascending.erase (ascending : map.Ascending) (path : SourcePath) :
    (map.erase path).Ascending :=
  ascending.filter _

/-- The keys of an ascending map ascend. -/
theorem Ascending.keys (ascending : map.Ascending) :
    map.keys.Pairwise fun left right => left.order right = .lt :=
  List.pairwise_map.mpr ascending

/-- In an ascending map every entry is found at its place. -/
theorem Ascending.find?_of_mem (ascending : map.Ascending) {key : SourcePath}
    (member : (key, value) ∈ map.entries) (same : key.components = place.components) :
    map.find? place = some value := by
  obtain ⟨entries⟩ := map
  simp only [Ascending] at *
  induction entries with
  | nil => cases member
  | cons head rest inductionHypothesis =>
      obtain ⟨other, old⟩ := head
      obtain ⟨first, others⟩ := List.pairwise_cons.mp ascending
      rw [find?_cons]
      rcases List.mem_cons.mp member with equal | later
      · cases equal
        rw [if_pos same]
      · have differ := SourcePath.components_ne_of_order_lt (first _ later)
        rw [if_neg fun equal => differ (equal.trans same.symm)]
        exact inductionHypothesis others later

/-- Nothing behind a key that is not before a path has the place of the path. -/
theorem components_ne_of_beyond {key path : SourcePath} {rest : List (SourcePath × α)}
    (first : ∀ entry ∈ rest, key.order entry.1 = .lt) (notAfter : path.order key ≠ .gt) :
    ∀ entry ∈ rest, entry.1.components ≠ path.components := by
  intro entry member same
  have before := first entry member
  rw [SourcePath.order_congr_right same, SourcePath.order_swap] at before
  exact notAfter (by simpa using before)

/-- Setting a value where one is found changes that entry and nothing else. -/
theorem Ascending.entries_insert (ascending : map.Ascending)
    (found : (map.find? path).isSome) (value : α) :
    (map.insert path value).entries = map.entries.map fun entry =>
      if entry.1.components = path.components then (entry.1, value) else entry := by
  obtain ⟨entries⟩ := map
  simp only [Ascending, PathMap.insert] at *
  induction entries with
  | nil => cases found
  | cons head rest inductionHypothesis =>
      obtain ⟨key, old⟩ := head
      obtain ⟨first, others⟩ := List.pairwise_cons.mp ascending
      rw [insertEntry, List.map_cons]
      split
      · next before =>
          exfalso
          obtain ⟨present, isPresent⟩ := Option.isSome_iff_exists.mp found
          obtain ⟨spelling, member, same⟩ := mem_of_find? isPresent
          rcases List.mem_cons.mp member with equal | later
          · cases equal
            exact SourcePath.components_ne_of_order_lt before same.symm
          · exact components_ne_of_beyond first (by simp [before]) _ later same
      · next equal =>
          have same := SourcePath.order_eq_iff.mp equal
          have untouched : rest.map (fun entry =>
              if entry.1.components = path.components then (entry.1, value) else entry) = rest :=
            (List.map_congr_left fun entry member =>
              if_neg (components_ne_of_beyond first (by simp [equal]) entry member)).trans
              (List.map_id rest)
          rw [untouched, if_pos same.symm]
      · next after =>
          have differ : key.components ≠ path.components := fun same => by
            rw [SourcePath.order_eq_iff.mpr same.symm] at after
            cases after
          rw [find?_cons, if_neg differ] at found
          rw [inductionHypothesis others found, if_neg differ]

/-- Setting a value where none is found adds the key. -/
theorem keys_insert_of_absent (absent : map.find? path = none) (value : α) :
    (map.insert path value).keys.Perm (path :: map.keys) := by
  obtain ⟨entries⟩ := map
  simp only [PathMap.keys, PathMap.insert] at *
  induction entries with
  | nil => exact .refl _
  | cons head rest inductionHypothesis =>
      obtain ⟨key, old⟩ := head
      have differ : key.components ≠ path.components := fun same => by
        rw [find?_cons, if_pos same] at absent
        cases absent
      rw [find?_cons, if_neg differ] at absent
      rw [insertEntry]
      split
      · exact .refl _
      · next equal => exact absurd (SourcePath.order_eq_iff.mp equal).symm differ
      · exact ((inductionHypothesis absent).cons key).trans (.swap path key _)

end ScriptAnalysis.PathMap
