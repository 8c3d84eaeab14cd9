import Mathlib.Data.List.Nodup
import ScriptAnalysis.Toml.Document

/-!
# Keys of a document

No table of a document has a key twice, at any level (`documentOfText?_isDistinct`). A key is added
to an open table only if it is new there; the table of a header is put in its place when the next
header comes, long after the place was found to be free, and `descend_descend` says that it is still
the same place.
-/

namespace ScriptAnalysis.Toml

open ScriptAnalysis.Text (Cursor Scan Span)

variable {β γ : Type} {members : Members} {name : String} {key : Key} {value : Node}

/-! ### Members with different keys -/

/-- The names of the keys in their order. -/
def Members.names (members : Members) : List String :=
  members.map fun entry => entry.1.text

/-- No table inside of the value has a key twice. -/
inductive Node.IsDistinct : Node → Prop where
  | scalar {span : Span} {value : Scalar} : IsDistinct (.scalar span value)
  | array {span : Span} {items : List Node} (each : ∀ item ∈ items, IsDistinct item) :
      IsDistinct (.array span items)
  | table {form : TableForm} {span : Option Span} {members : Members}
      (nodup : members.names.Nodup) (each : ∀ entry ∈ members, IsDistinct entry.2) :
      IsDistinct (.table form span members)
  | tables {items : List Node} (each : ∀ item ∈ items, IsDistinct item) :
      IsDistinct (.tables items)

/-- No key comes twice among the members, nor inside of a value. -/
structure Members.IsDistinct (members : Members) : Prop where
  nodup : members.names.Nodup
  each : ∀ entry ∈ members, entry.2.IsDistinct

theorem Node.isDistinct_table_iff {form : TableForm} {span : Option Span} :
    (Node.table form span members).IsDistinct ↔ members.IsDistinct := by
  constructor
  · intro distinct
    cases distinct with
    | table nodup each => exact ⟨nodup, each⟩
  · exact fun distinct => .table distinct.nodup distinct.each

theorem Node.isDistinct_tables_iff {items : List Node} :
    (Node.tables items).IsDistinct ↔ ∀ item ∈ items, item.IsDistinct := by
  constructor
  · intro distinct
    cases distinct with
    | tables each => exact each
  · exact .tables

/-- A group with one more table at its end. -/
theorem Node.isDistinct_tables_concat {items : List Node} {form : TableForm} {span : Option Span}
    (each : ∀ item ∈ items, item.IsDistinct) (fine : members.IsDistinct) :
    (Node.tables (items ++ [.table form span members])).IsDistinct := by
  refine .tables fun item member => ?_
  rcases List.mem_append.mp member with before | last
  · exact each item before
  · rw [List.mem_singleton.mp last]
    exact Node.isDistinct_table_iff.mpr fine

namespace Members

theorem find?_eq_none_iff : members.find? name = none ↔ name ∉ members.names := by
  simp [find?, names]

theorem isDistinct_nil : IsDistinct [] :=
  ⟨List.nodup_nil, nofun⟩

theorem IsDistinct.concat (distinct : members.IsDistinct) (absent : members.find? key.text = none)
    (fine : value.IsDistinct) : IsDistinct (members ++ [(key, value)]) := by
  refine ⟨?_, fun entry member => ?_⟩
  · rw [names, List.map_append]
    exact List.nodup_append.mpr ⟨distinct.nodup, List.nodup_singleton _, by
      rintro left before right last rfl
      rw [List.mem_singleton.mp last] at before
      exact find?_eq_none_iff.mp absent before⟩
  · rcases List.mem_append.mp member with before | last
    · exact distinct.each entry before
    · rwa [List.mem_singleton.mp last]

theorem names_replace (members : Members) (name : String) (value : Node) :
    (members.replace name value).names = members.names := by
  rw [names, replace, List.map_map]
  refine List.map_congr_left fun entry _ => ?_
  by_cases same : entry.1.text = name <;> simp [same]

theorem IsDistinct.replace (distinct : members.IsDistinct) (name : String)
    (fine : value.IsDistinct) : (members.replace name value).IsDistinct := by
  refine ⟨by rw [names_replace]; exact distinct.nodup, fun entry member => ?_⟩
  obtain ⟨old, there, rfl⟩ := List.mem_map.mp member
  split
  · exact fine
  · exact distinct.each old there

theorem IsDistinct.remove (distinct : members.IsDistinct) (name : String) :
    (members.remove name).IsDistinct :=
  ⟨(List.filter_sublist.map _).nodup distinct.nodup,
    fun entry member => distinct.each entry (List.mem_of_mem_filter member)⟩

theorem find?_remove_self (members : Members) (name : String) :
    (members.remove name).find? name = none := by
  rw [find?_eq_none_iff, names, remove]
  simp

theorem IsDistinct.of_find? (distinct : members.IsDistinct)
    (found : members.find? name = some value) : value.IsDistinct := by
  obtain ⟨entry, there, rfl⟩ := Option.map_eq_some_iff.mp found
  exact distinct.each entry (List.mem_of_find?_eq_some there)

/-- What is put under a key that is there is found under it. -/
theorem find?_replace_self {old : Node} (found : members.find? name = some old) (value : Node) :
    (members.replace name value).find? name = some value := by
  obtain ⟨entry, first, rfl⟩ := Option.map_eq_some_iff.mp found
  have named : entry.1.text = name := by simpa using List.find?_some first
  have same : ((fun entry : Key × Node => entry.1.text == name) ∘ fun entry =>
      if entry.1.text = name then (entry.1, value) else entry) =
        fun entry => entry.1.text == name := by
    funext other
    by_cases here : other.1.text = name <;> simp [here]
  rw [find?, replace, List.find?_map, same, first, Option.map_some, Option.map_some, if_pos named]

theorem replace_replace (members : Members) (name : String) (first second : Node) :
    (members.replace name first).replace name second = members.replace name second := by
  rw [replace, replace, replace, List.map_map]
  refine List.map_congr_left fun entry _ => ?_
  by_cases same : entry.1.text = name <;> simp [same]

theorem find?_concat_self (absent : members.find? key.text = none) (value : Node) :
    Members.find? (members ++ [(key, value)]) key.text = some value := by
  rw [find?, List.find?_append, Option.map_eq_none_iff.mp absent]
  simp

theorem replace_concat_self (absent : members.find? key.text = none) (first second : Node) :
    Members.replace (members ++ [(key, first)]) key.text second = members ++ [(key, second)] := by
  have others : members.replace key.text second = members := by
    refine (List.map_congr_left fun entry member => if_neg fun same => ?_).trans members.map_id'
    exact find?_eq_none_iff.mp absent (List.mem_map.mpr ⟨entry, member, same⟩)
  rw [replace, List.map_append, ← replace, others]
  simp

end Members

/-! ### Going down to a table -/

/-- The table that a path leads to from some members: its form, its members, and the whole with
other members put there. -/
structure Place (isDotted : Bool) (path : List Key) (start : TableForm) (members : Members) where
  form : TableForm
  inner : Members
  put : Members → Members
  /-- Acting at the end of the path is acting on the members of this table. -/
  descends : ∀ {β : Type} (act : TableForm → Members → Option (Members × β)),
    descend isDotted act path start members =
      (act form inner).map fun result => (put result.1, result.2)
  /-- When other members were put there, the path leads to them. -/
  again : ∀ {β : Type} (act : TableForm → Members → Option (Members × β)) (other : Members),
    descend isDotted act path start (put other) =
      (act form other).map fun result => (put result.1, result.2)
  isDistinct : members.IsDistinct →
    inner.IsDistinct ∧ ∀ other, Members.IsDistinct other → (put other).IsDistinct

/-- The place that a path leads to from a table that its first key leads to. -/
def Place.enter {isDotted : Bool} {path : List Key} {start form : TableForm}
    {members inner : Members} (place : Place isDotted path form inner) (put : Members → Members)
    (descends : ∀ {β : Type} (act : TableForm → Members → Option (Members × β)),
      descend isDotted act (key :: path) start members =
        (descend isDotted act path form inner).map fun result => (put result.1, result.2))
    (again : ∀ {β : Type} (act : TableForm → Members → Option (Members × β)) (other : Members),
      descend isDotted act (key :: path) start (put other) =
        (descend isDotted act path form other).map fun result => (put result.1, result.2))
    (isDistinct : members.IsDistinct →
      inner.IsDistinct ∧ ∀ other, Members.IsDistinct other → (put other).IsDistinct) :
    Place isDotted (key :: path) start members where
  form := place.form
  inner := place.inner
  put other := put (place.put other)
  descends act := by
    rw [descends act, place.descends act, Option.map_map]
    rfl
  again act other := by
    rw [again act, place.again act, Option.map_map]
    rfl
  isDistinct distinct := by
    obtain ⟨inside, outside⟩ := isDistinct distinct
    obtain ⟨deeper, within⟩ := place.isDistinct inside
    exact ⟨deeper, fun other fine => outside _ (within other fine)⟩

/-- The way through a table that is made for it. -/
def Place.enterNew {isDotted : Bool} {path : List Key} (start : TableForm) {form : TableForm}
    (made : form = if isDotted then .dotted else .implied)
    (absent : members.find? key.text = none) (place : Place isDotted path form []) :
    Place isDotted (key :: path) start members :=
  place.enter (fun other => members ++ [(key, .table form none other)])
    (fun act => by
      simp only [descend, absent, ← made]
      cases descend isDotted act path form [] <;> rfl)
    (fun act other => by
      have enters : (decide (form = .inline) || (isDotted && decide (form = .header))) = false := by
        cases isDotted <;> simp [made]
      simp only [descend, Members.find?_concat_self absent, enters]
      cases descend isDotted act path form other <;> simp [Members.replace_concat_self absent])
    (fun distinct => ⟨Members.isDistinct_nil, fun other fine =>
      distinct.concat absent (Node.isDistinct_table_iff.mpr fine)⟩)

/-- The way through a table that can be added to. -/
def Place.enterTable {isDotted : Bool} {path : List Key} (start : TableForm) {form : TableForm}
    {span : Option Span} {inner : Members}
    (found : members.find? key.text = some (.table form span inner))
    (enters : (decide (form = .inline) || (isDotted && decide (form = .header))) = false)
    (place : Place isDotted path form inner) : Place isDotted (key :: path) start members :=
  place.enter (fun other => members.replace key.text (.table form span other))
    (fun act => by
      simp only [descend, found, enters]
      cases descend isDotted act path form inner <;> rfl)
    (fun act other => by
      simp only [descend, Members.find?_replace_self found, enters]
      cases descend isDotted act path form other <;> simp [Members.replace_replace])
    (fun distinct => ⟨Node.isDistinct_table_iff.mp (distinct.of_find? found), fun other fine =>
      distinct.replace _ (Node.isDistinct_table_iff.mpr fine)⟩)

/-- The way through the last table of a group. -/
def Place.enterGroup {isDotted : Bool} {path : List Key} (start : TableForm) {form : TableForm}
    {span : Option Span} {inner : Members} {items : List Node}
    (found : members.find? key.text = some (.tables items))
    (last : items.getLast? = some (.table form span inner))
    (place : Place isDotted path form inner) : Place isDotted (key :: path) start members :=
  place.enter
    (fun other => members.replace key.text (.tables (items.dropLast ++ [.table form span other])))
    (fun act => by
      simp only [descend, found, last]
      cases descend isDotted act path form inner <;> rfl)
    (fun act other => by
      simp only [descend, Members.find?_replace_self found, List.getLast?_concat,
        List.dropLast_concat]
      cases descend isDotted act path form other <;> simp [Members.replace_replace])
    (fun distinct => by
      have each := Node.isDistinct_tables_iff.mp (distinct.of_find? found)
      refine ⟨Node.isDistinct_table_iff.mp (each _ (List.mem_of_getLast? last)), ?_⟩
      exact fun other fine => distinct.replace _ (Node.isDistinct_tables_concat
        (fun item member => each item (List.dropLast_subset items member)) fine))

/-- A path leads to a table, or nothing can be done at its end. -/
theorem exists_place (isDotted : Bool) (path : List Key) (start : TableForm) (members : Members) :
    Nonempty (Place isDotted path start members) ∨
      ∀ {β : Type} (act : TableForm → Members → Option (Members × β)),
        descend isDotted act path start members = none := by
  induction path generalizing start members with
  | nil =>
      exact .inl ⟨{
        form := start
        inner := members
        put := id
        descends := fun act => by simp [descend]
        again := fun act other => by simp [descend]
        isDistinct := fun distinct => ⟨distinct, fun _ fine => fine⟩ }⟩
  | cons key path inductionHypothesis =>
      cases found : members.find? key.text with
      | none =>
          rcases inductionHypothesis (if isDotted then .dotted else .implied) [] with
            ⟨⟨place⟩⟩ | nowhere
          · exact .inl ⟨place.enterNew start rfl found⟩
          · exact .inr fun act => by simp only [descend, found, nowhere act]
      | some node =>
          cases node with
          | scalar | array => exact .inr fun act => by simp only [descend, found]
          | table form span inner =>
              cases enters : (decide (form = .inline) || (isDotted && decide (form = .header))) with
              | true => exact .inr fun act => by simp only [descend, found, enters, if_true]
              | false =>
                  rcases inductionHypothesis form inner with ⟨⟨place⟩⟩ | nowhere
                  · exact .inl ⟨place.enterTable start found enters⟩
                  · exact .inr fun act => by simp only [descend, found, enters, nowhere act]; rfl
          | tables items =>
              by_cases last : ∃ form span inner, items.getLast? = some (.table form span inner)
              · obtain ⟨form, span, inner, last⟩ := last
                rcases inductionHypothesis form inner with ⟨⟨place⟩⟩ | nowhere
                · exact .inl ⟨place.enterGroup start found last⟩
                · exact .inr fun act => by simp only [descend, found, last, nowhere act]
              · refine .inr fun act => ?_
                simp only [descend, found]
                split
                · next form span inner shape => exact absurd ⟨form, span, inner, shape⟩ last
                · rfl

/-- What is done at the end of a path keeps the keys apart if it keeps them apart there. -/
theorem descend_keeps {isDotted : Bool} {act : TableForm → Members → Option (Members × β)}
    {path : List Key} {start : TableForm} {result : Members × β} (holds : β → Prop)
    (one : ∀ form members result, Members.IsDistinct members → act form members = some result →
      result.1.IsDistinct ∧ holds result.2)
    (distinct : members.IsDistinct)
    (done : descend isDotted act path start members = some result) :
    result.1.IsDistinct ∧ holds result.2 := by
  rcases exists_place isDotted path start members with ⟨⟨place⟩⟩ | nowhere
  · rw [place.descends] at done
    obtain ⟨after, acted, rfl⟩ := Option.map_eq_some_iff.mp done
    obtain ⟨inner, put⟩ := place.isDistinct distinct
    obtain ⟨fine, held⟩ := one _ _ after inner acted
    exact ⟨put _ fine, held⟩
  · rw [nowhere] at done
    cases done

/-- Going down a second time leads to where the first time led. -/
theorem descend_descend {isDotted : Bool} {first : TableForm → Members → Option (Members × β)}
    {path : List Key} {start : TableForm} {between : Members} {found : β}
    (done : descend isDotted first path start members = some (between, found))
    (second : TableForm → Members → Option (Members × γ)) :
    descend isDotted second path start between =
      descend isDotted (fun form members => (first form members).bind fun result =>
        second form result.1) path start members := by
  rcases exists_place isDotted path start members with ⟨⟨place⟩⟩ | nowhere
  · rw [place.descends] at done ⊢
    obtain ⟨⟨after, _⟩, acted, same⟩ := Option.map_eq_some_iff.mp done
    cases same
    rw [place.again, acted]
    rfl
  · rw [nowhere] at done
    cases done

/-! ### Adding to a document -/

theorem insertValue_isDistinct {path : List Key} {form : TableForm} {after : Members}
    (distinct : members.IsDistinct) (fine : value.IsDistinct)
    (added : insertValue path key value form members = some after) : after.IsDistinct := by
  obtain ⟨result, done, rfl⟩ := Option.map_eq_some_iff.mp added
  refine (descend_keeps (fun _ => True) ?_ distinct done).1
  intro form members result distinct acted
  split at acted
  · cases acted
  · split at acted
    · cases acted
    · next absent =>
        cases acted
        exact ⟨distinct.concat (Option.not_isSome_iff_eq_none.mp absent) fine, trivial⟩

/-- What is finished and what is open keep their keys apart, also when the open table is put in its
place in the end. -/
structure Draft.IsSound (draft : Draft) : Prop where
  members : draft.members.IsDistinct
  closes : ∀ members span closed, Members.IsDistinct members →
    Draft.close { draft with members := members, span := span } = some closed → closed.IsDistinct

namespace Draft

variable {draft after : Draft} {path : List Key} {span : Span}

theorem IsSound.close (sound : draft.IsSound) {closed : Members}
    (done : draft.close = some closed) : closed.IsDistinct :=
  sound.closes draft.members draft.span closed sound.members done

theorem isSound_start : start.IsSound where
  members := Members.isDistinct_nil
  closes members span closed distinct done := by
    cases done
    exact distinct

theorem IsSound.addValue (sound : draft.IsSound) (fine : value.IsDistinct)
    (added : draft.addValue path key value = some after) : after.IsSound := by
  obtain ⟨members, inserted, rfl⟩ := Option.map_eq_some_iff.mp added
  exact ⟨insertValue_isDistinct sound.members fine inserted, sound.closes⟩

/-- Below a header the place of its table is free, and it stays so until the table is closed. -/
theorem IsSound.openTable (sound : draft.IsSound)
    (opened : draft.openTable path span = some after) : after.IsSound := by
  unfold Draft.openTable at opened
  split at opened
  · next finished key done last =>
      have finishedFine := sound.close done
      obtain ⟨⟨between, inner⟩, taken, rfl⟩ := Option.map_eq_some_iff.mp opened
      refine ⟨(descend_keeps Members.IsDistinct ?_ finishedFine taken).2, ?_⟩
      · intro form members result distinct acted
        split at acted
        · cases acted
          exact ⟨distinct, Members.isDistinct_nil⟩
        · next found =>
            cases acted
            exact ⟨distinct.remove _, Node.isDistinct_table_iff.mp (distinct.of_find? found)⟩
        · cases acted
      · intro members span closed fine closes
        simp only [Draft.close, last] at closes
        obtain ⟨result, put, rfl⟩ := Option.map_eq_some_iff.mp closes
        -- Freeing the key and putting the table there are one visit of the same place.
        rw [descend_descend taken] at put
        refine (descend_keeps (fun _ => True) ?_ finishedFine put).1
        intro form others result distinct acted
        obtain ⟨freed, taken, stored⟩ := Option.bind_eq_some_iff.mp acted
        have free : freed.1.IsDistinct ∧ freed.1.find? key.text = none := by
          split at taken
          · next absent =>
              cases taken
              exact ⟨distinct, absent⟩
          · cases taken
            exact ⟨distinct.remove _, Members.find?_remove_self others key.text⟩
          · cases taken
        cases stored
        exact ⟨free.1.concat free.2 (Node.isDistinct_table_iff.mpr fine), trivial⟩
  · cases opened

theorem IsSound.openGrouped (sound : draft.IsSound)
    (opened : draft.openGrouped path span = some after) : after.IsSound := by
  unfold Draft.openGrouped at opened
  split at opened
  · next finished key done last =>
      have finishedFine := sound.close done
      obtain ⟨⟨between, _⟩, joined, rfl⟩ := Option.map_eq_some_iff.mp opened
      have betweenFine : between.IsDistinct := by
        refine (descend_keeps (fun _ => True) ?_ finishedFine joined).1
        intro form members result distinct acted
        split at acted
        · next absent =>
            cases acted
            exact ⟨distinct.concat absent (.tables nofun), trivial⟩
        · cases acted
          exact ⟨distinct, trivial⟩
        · cases acted
      refine ⟨Members.isDistinct_nil, ?_⟩
      intro members span closed fine closes
      simp only [Draft.close, last] at closes
      obtain ⟨result, put, rfl⟩ := Option.map_eq_some_iff.mp closes
      refine (descend_keeps (fun _ => True) ?_ betweenFine put).1
      intro form others result distinct acted
      simp only [if_true] at acted
      split at acted
      · next items found =>
          cases acted
          have earlier := Node.isDistinct_tables_iff.mp (distinct.of_find? found)
          exact ⟨distinct.replace _ (Node.isDistinct_tables_concat earlier fine), trivial⟩
      · cases acted
  · cases opened

end Draft

/-! ### Reading a document -/

variable {item : Scan Node} {cursor : Cursor}

theorem scanArrayRest_isDistinct (each : ∀ cursor result, item cursor = some result →
    result.1.IsDistinct) {fuel : Nat} {result : List Node × Cursor}
    (scanned : scanArrayRest item fuel cursor = some result) :
    ∀ node ∈ result.1, node.IsDistinct := by
  induction fuel generalizing cursor result with
  | zero => cases scanned
  | succ fuel inductionHypothesis =>
      simp only [scanArrayRest] at scanned
      split at scanned
      · cases scanned
        exact nofun
      · split at scanned
        · cases scanned
        · next first after read =>
            have firstFine := each _ _ read
            split at scanned
            · cases scanned
              exact fun node member => List.mem_singleton.mp member ▸ firstFine
            · obtain ⟨rest, scannedRest, rfl⟩ := Option.map_eq_some_iff.mp scanned
              exact List.forall_mem_cons.mpr ⟨firstFine, inductionHypothesis scannedRest⟩
            · cases scanned

theorem scanInlineRest_isDistinct (each : ∀ cursor result, item cursor = some result →
    result.1.IsDistinct) {fuel : Nat} {result : Members × Cursor} (distinct : members.IsDistinct)
    (scanned : scanInlineRest item fuel members cursor = some result) : result.1.IsDistinct := by
  induction fuel generalizing members cursor result with
  | zero => cases scanned
  | succ fuel inductionHypothesis =>
      simp only [scanInlineRest] at scanned
      split at scanned
      · cases scanned
      · split at scanned
        · split at scanned
          · cases scanned
          · next value after read =>
              split at scanned
              · cases scanned
              · next added inserted =>
                  have more := insertValue_isDistinct distinct (each _ _ read) inserted
                  split at scanned
                  · cases scanned
                    exact more
                  · exact inductionHypothesis more scanned
                  · cases scanned
        · cases scanned

theorem scanValue_isDistinct (depth : Nat) (cursor : Cursor) (result : Node × Cursor)
    (scanned : scanValue depth cursor = some result) : result.1.IsDistinct := by
  induction depth generalizing cursor result with
  | zero =>
      unfold scanValue at scanned
      split at scanned
      · cases scanned
      · cases scanned
      · contradiction
      · contradiction
      · obtain ⟨_, _, rfl⟩ := Option.map_eq_some_iff.mp scanned
        exact .scalar
  | succ depth inductionHypothesis =>
      unfold scanValue at scanned
      split at scanned
      · contradiction
      · contradiction
      · next inner _ deeper =>
          cases deeper
          obtain ⟨_, read, rfl⟩ := Option.map_eq_some_iff.mp scanned
          exact .array (scanArrayRest_isDistinct inductionHypothesis read)
      · next inner _ deeper =>
          cases deeper
          split at scanned
          · cases scanned
            exact Node.isDistinct_table_iff.mpr Members.isDistinct_nil
          · obtain ⟨_, read, rfl⟩ := Option.map_eq_some_iff.mp scanned
            exact Node.isDistinct_table_iff.mpr
              (scanInlineRest_isDistinct inductionHypothesis Members.isDistinct_nil read)
      · obtain ⟨_, _, rfl⟩ := Option.map_eq_some_iff.mp scanned
        exact .scalar

theorem scanAssignment_isSound {draft : Draft} {result : Draft × Cursor} (sound : draft.IsSound)
    (scanned : scanAssignment draft cursor = some result) : result.1.IsSound := by
  simp only [scanAssignment, Option.bind_eq_bind, Option.bind_eq_some_iff] at scanned
  obtain ⟨⟨keys, _⟩, _, key, _, _, _, ⟨value, _⟩, read, _, _, more, added, done⟩ := scanned
  cases done
  exact sound.addValue (scanValue_isDistinct _ _ _ read) added

theorem scanHeader_isSound {draft : Draft} {result : Draft × Cursor} (sound : draft.IsSound)
    (scanned : scanHeader draft cursor = some result) : result.1.IsSound := by
  unfold scanHeader at scanned
  split at scanned
  · simp only [Option.bind_eq_bind, Option.bind_eq_some_iff] at scanned
    obtain ⟨_, _, _, _, more, opened, _, _, done⟩ := scanned
    cases done
    exact sound.openGrouped opened
  · simp only [Option.bind_eq_bind, Option.bind_eq_some_iff] at scanned
    obtain ⟨_, _, _, _, _, _, more, opened, _, _, done⟩ := scanned
    cases done
    exact sound.openTable opened

theorem scanDocument_isSound {fuel : Nat} {draft after : Draft} (sound : draft.IsSound)
    (scanned : scanDocument fuel draft cursor = some after) : after.IsSound := by
  induction fuel generalizing draft cursor with
  | zero => cases scanned
  | succ fuel inductionHypothesis =>
      simp only [scanDocument] at scanned
      split at scanned
      · cases scanned
        exact sound
      · split at scanned
        · next next after line =>
            refine inductionHypothesis ?_ scanned
            split at line
            · obtain ⟨_, _, same⟩ := Option.map_eq_some_iff.mp line
              cases same
              exact sound
            · split at line
              · exact scanHeader_isSound sound line
              · exact scanAssignment_isSound sound line
        · cases scanned

/-- In a document no table has a key twice. -/
theorem documentOfText?_isDistinct {text : String} (read : documentOfText? text = some members) :
    members.IsDistinct := by
  obtain ⟨draft, scanned, closed⟩ := Option.bind_eq_some_iff.mp read
  exact (scanDocument_isSound Draft.isSound_start scanned).close closed

end ScriptAnalysis.Toml
