import ScriptAnalysis.Proofs.Path.Route

/-!
# Canonical paths

A path is canonical if its text has no `.`, no separator behind another one or at the end, except
for the root itself, and no `..` but one at the beginning (`IsCanonical`). Such a text is nothing but
its components and the separators between them (`IsCanonical.isPlain`), so the canonical paths are
exactly those that normalising leaves alone (`normalize_canonical`).
-/

namespace ScriptAnalysis

/-- A component that can stand between separators is written neither with nothing nor as a `.`. -/
theorem Component.IsSegment.ne {component : Component} (segment : component.IsSegment) :
    component.text.toList ≠ [] ∧ component.text.toList ≠ ['.'] := by
  constructor <;> intro blank <;> have read := segment.1 <;> rw [blank] at read <;> cases read

namespace SourcePath

open Component

variable {path : SourcePath} {chars rest : List Char}

/-! ### Stretches between separators -/

theorem tail_segments_cons (c : Char) (rest : List Char) :
    (segments (c :: rest)).tail = if c = '/' then segments rest else (segments rest).tail := by
  rw [segments]
  split
  · rfl
  · cases segments rest <;> rfl

/-- Only a text that is empty or begins with a separator has nothing before its first separator. -/
theorem nil_mem_segments_iff (chars : List Char) :
    [] ∈ segments chars ↔ chars = [] ∨ ['/'] <+: chars ∨ [] ∈ (segments chars).tail := by
  cases chars with
  | nil => simp [segments]
  | cons c rest =>
      rw [List.cons_prefix_cons, tail_segments_cons, segments]
      by_cases separator : c = '/'
      · simp [separator]
      · cases split : segments rest <;> simp [separator, Ne.symm separator]

/-- Nothing stands between two separators or behind the last one exactly if the text has two
separators in a row or one at the end. -/
theorem nil_mem_tail_segments_iff (chars : List Char) :
    [] ∈ (segments chars).tail ↔ ['/'] <:+ chars ∨ ['/', '/'] <:+: chars := by
  induction chars with
  | nil => simp [segments]
  | cons c rest inductionHypothesis =>
      rw [tail_segments_cons, List.suffix_cons_iff, List.infix_cons_iff, List.cons_prefix_cons]
      by_cases separator : c = '/'
      · rw [if_pos separator, nil_mem_segments_iff, inductionHypothesis]
        subst separator
        simp only [List.cons.injEq, true_and, eq_comm (a := ([] : List Char))]
        tauto
      · rw [if_neg separator, inductionHypothesis]
        simp [Ne.symm separator]

/-- The text is empty, or each of its stretches stands for a component. -/
def Tight (chars : List Char) : Prop :=
  (chars = [] ∨ [] ∉ segments chars) ∧ ['.'] ∉ segments chars

/-- A stretch that is neither empty nor a `.` stands for a component that is written alike. -/
theorem map_text_ofSegment {segment : List Char} (full : segment ≠ []) (other : segment ≠ ['.']) :
    (ofSegment segment).map (String.toList ∘ Component.text) = some segment := by
  unfold ofSegment
  split
  · exact absurd rfl full
  · exact absurd rfl other
  · rfl
  · exact congrArg some String.toList_ofList

/-- A tight text is nothing but its components and the separators between them. -/
theorem Tight.intercalate_eq (tight : Tight chars) :
    (String.intercalate "/" (((segments chars).filterMap ofSegment).map Component.text)).toList =
      chars := by
  obtain ⟨rfl | full, undotted⟩ := tight
  · rfl
  · have written : ∀ segment ∈ segments chars,
        (ofSegment segment).map (String.toList ∘ Component.text) = some segment :=
      fun segment member => map_text_ofSegment (ne_of_mem_of_not_mem member full)
        (ne_of_mem_of_not_mem member undotted)
    have separator : "/".toList = ['/'] := rfl
    rw [String.toList_intercalate, List.map_map, List.map_filterMap, separator,
      List.filterMap_congr written, List.filterMap_some, segments_eq_splitOn]
    exact List.intercalate_splitOn '/'

/-- Components with separators between them make a tight text. -/
theorem tight_intercalate {parts : List Component}
    (written : ∀ component ∈ parts, component.IsSegment) :
    Tight (String.intercalate "/" (parts.map Component.text)).toList := by
  by_cases empty : parts = []
  · rw [empty]
    exact ⟨.inl rfl, by decide⟩
  · rw [Tight, segments_intercalate empty written]
    refine ⟨.inr fun member => ?_, fun member => ?_⟩
    all_goals
      obtain ⟨component, there, blank⟩ := List.mem_map.mp member
      have := (written component there).ne
      simp_all

/-- The text behind the root, or the whole text of a relative path. -/
def below (path : SourcePath) : List Char :=
  if path.isAbsolute then path.text.toList.tail else path.text.toList

theorem toList_text (path : SourcePath) :
    path.text.toList = (if path.isAbsolute then ['/'] else []) ++ path.below := by
  rw [below]
  cases absolute : path.isAbsolute with
  | true =>
      obtain ⟨rest, shape⟩ := exists_text_of_absolute absolute
      rw [shape]
      rfl
  | false => rfl

/-- The text of a path is tight behind the root exactly if it has no `.`, no separator behind
another one and none at the end, except for the root itself. -/
theorem tight_below_iff (path : SourcePath) :
    Tight path.below ↔ ['.'] ∉ path.text.toList.splitOn '/' ∧
      ¬ ['/', '/'] <:+: path.text.toList ∧ (['/'] <:+ path.text.toList → path.text = "/") := by
  have bare : path.text = "/" ↔ path.text.toList = ['/'] := String.toList_inj.symm
  have doubled := nil_mem_tail_segments_iff path.text.toList
  have shape := path.toList_text
  rw [bare, ← segments_eq_splitOn, Tight]
  cases absolute : path.isAbsolute with
  | true =>
      rw [absolute, if_pos rfl, List.singleton_append] at shape
      rw [shape, segments, if_pos rfl] at doubled ⊢
      by_cases root : path.below = []
      · rw [root]
        decide
      · simp only [List.tail_cons, List.mem_cons, List.cons.injEq, true_and, root, reduceCtorEq,
          false_or] at doubled ⊢
        tauto
  | false =>
      rw [absolute, if_neg Bool.false_ne_true, List.nil_append] at shape
      rw [isAbsolute, shape] at absolute
      rw [shape] at doubled ⊢
      have relative : ¬ ['/'] <+: path.below := by
        rintro ⟨rest, starts⟩
        simp [← starts] at absolute
      have unrooted : path.below ≠ ['/'] := fun root => relative (root ▸ List.prefix_rfl)
      have some := nil_mem_segments_iff path.below
      by_cases empty : path.below = []
      · rw [empty]
        decide
      · tauto

/-- The components of a path that is tight behind the root stand between its separators. -/
theorem components_of_tight (tight : Tight path.below) :
    path.components = path.top ++ (segments path.below).filterMap ofSegment := by
  have shape := path.toList_text
  rw [components, top]
  cases absolute : path.isAbsolute with
  | true =>
      rw [absolute] at shape
      rw [shape]
      rfl
  | false =>
      rw [absolute] at shape
      rw [shape]
      refine componentsOf_relative ?_ fun rest split => ?_
      · simpa [isAbsolute, shape] using absolute
      · exact tight.2 (split ▸ List.mem_cons_self)

theorem toList_ofComponents (isAbsolute : Bool) {parts : List Component}
    (written : ∀ component ∈ parts, component.IsSegment) :
    (ofComponents ((if isAbsolute then [.root] else []) ++ parts)).text.toList =
      (if isAbsolute then ['/'] else []) ++
        (String.intercalate "/" (parts.map Component.text)).toList := by
  cases isAbsolute with
  | true => simp [ofComponents]
  | false => exact congrArg (fun path => path.text.toList) (ofComponents_of_written written)

/-! ### Canonical paths -/

/-- A path that is written with nothing to spare. -/
structure IsCanonical (path : SourcePath) : Prop where
  /-- Nowhere does a `.` stand for itself. -/
  undotted : ['.'] ∉ path.text.toList.splitOn '/'
  /-- No separator follows another one. -/
  single : ¬ ['/', '/'] <:+: path.text.toList
  /-- A separator at the end is the root. -/
  closed : ['/'] <:+ path.text.toList → path.text = "/"
  /-- Behind the root, if there is one, comes at most one `..`, and then come names. -/
  climbs : ∃ route : Route, route.up ≤ 1 ∧ path.components = path.top ++ route.parts

/-- A canonical path is its components and the separators between them. -/
theorem IsCanonical.isPlain (canonical : path.IsCanonical) : path.IsPlain := by
  have tight := path.tight_below_iff.mpr ⟨canonical.undotted, canonical.single, canonical.closed⟩
  have text : path.plain.text.toList = path.text.toList := by
    rw [plain, components_of_tight tight, top, toList_ofComponents, tight.intercalate_eq,
      ← path.toList_text]
    exact fun component => isSegment_of_mem_filterMap
  exact congrArg SourcePath.mk (String.toList_inj.mp text)

theorem isCanonical_normalize (path : SourcePath) : path.normalize.IsCanonical := by
  have shape : path.normalize.components = path.normalize.top ++ path.route.kept.parts := by
    rw [components_normalize_eq, top_normalize]
  have written : ∀ component ∈ path.route.kept.parts, component.IsSegment := by
    intro component member
    have there : component ∈ path.normalize.components := shape ▸ List.mem_append_right _ member
    rcases List.mem_append.mp member with up | down
    · rw [List.eq_of_mem_replicate up]
      decide
    · obtain ⟨name, -, rfl⟩ := List.mem_map.mp down
      exact isSegment_of_mem_components there
  have tight : Tight path.normalize.below := by
    have text : path.normalize.text.toList = path.normalize.plain.text.toList := by
      rw [isPlain_normalize path]
    rw [path.normalize.toList_text, plain, shape, top, toList_ofComponents _ written] at text
    exact List.append_cancel_left text ▸ tight_intercalate written
  obtain ⟨undotted, single, closed⟩ := path.normalize.tight_below_iff.mp tight
  exact ⟨undotted, single, closed, path.route.kept, Nat.le_of_lt_succ (Nat.mod_lt _ (by decide)), shape⟩

/-- Nothing is left to apply in a canonical path. -/
theorem IsCanonical.normalize_eq (canonical : path.IsCanonical) : path.normalize = path := by
  refine (isPlain_normalize path).eq_of_components canonical.isPlain ?_
  obtain ⟨route, low, shape⟩ := canonical.climbs
  have along : path.route = route := by rw [SourcePath.route, shape, along_top_append]
  rw [components_normalize_eq, shape, along, Route.kept, Nat.mod_eq_of_lt (Nat.lt_succ_of_le low)]

/-- Normalising is a canonical form of paths. What it yields is canonical and stays as it is when it
is normalised again, as canonical paths do, and all spellings of a place yield the same text. -/
theorem normalize_canonical :
    (∀ path : SourcePath, path.normalize.normalize = path.normalize ∧ path.normalize.IsCanonical) ∧
    (∀ path : SourcePath, path.IsCanonical → path.normalize = path) ∧
    ∀ left right : SourcePath, left.Same right → left.normalize = right.normalize := by
  refine ⟨fun path => ⟨path.normalize_normalize, path.isCanonical_normalize⟩,
    fun path canonical => canonical.normalize_eq, fun left right same => ?_⟩
  rw [normalize, normalize, same]

/-- Spellings of a place above the directory that it is seen from. -/
theorem normalize_canonical_above :
    let spelling := SourcePath.mk "./a/..//../b/./c/"
    let other := SourcePath.mk "././a/../..//b/c"
    let canonical := SourcePath.mk "../b/c"
    spelling.Same other ∧ spelling.normalize = other.normalize ∧
      canonical.IsCanonical ∧ canonical.normalize = canonical ∧ spelling.normalize = canonical := by
  intro spelling other canonical
  have same : spelling.Same other := by decide +kernel
  have plain : canonical.IsCanonical :=
    ⟨by decide +kernel, by decide +kernel, by decide +kernel, ⟨1, ["b", "c"]⟩, Nat.le_refl 1,
      by decide +kernel⟩
  exact ⟨same, normalize_canonical.2.2 spelling other same, plain,
    normalize_canonical.2.1 canonical plain, by decide +kernel⟩

end SourcePath

end ScriptAnalysis
