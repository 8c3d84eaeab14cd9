import Mathlib.Data.List.Basic
import ScriptAnalysis.SourcePath

/-!
# Spellings of paths

A place has many spellings. `ofComponents` writes the plain one, and
`components_ofComponents` reads it back whenever every component can stand between
separators. Normal paths are plain, so two of them for one place are the same text
(`IsPlain.eq_of_components`). `components_join` says what a joined path stands for.
-/

namespace ScriptAnalysis

namespace SourcePath

theorem segments_eq_splitOn (chars : List Char) : segments chars = chars.splitOn '/' := by
  induction chars with
  | nil => rfl
  | cons c rest inductionHypothesis =>
      rw [segments, inductionHypothesis]
      simp only [List.splitOn, List.splitOnP_cons_eq_if_modifyHead]
      by_cases separator : c = '/'
      · simp [separator]
      · rw [if_neg separator, if_neg (by simpa using separator)]
        cases split : rest.splitOnP (· == '/') with
        | nil => exact absurd split (List.splitOnP_ne_nil _ _)
        | cons first others => rfl

/-- A separator ends one stretch and begins another. -/
theorem segments_append_separator (left right : List Char) :
    segments (left ++ '/' :: right) = segments left ++ segments right := by
  induction left with
  | nil => simp [segments]
  | cons c rest inductionHypothesis =>
      rw [List.cons_append, segments, segments, inductionHypothesis]
      by_cases separator : c = '/'
      · rw [if_pos separator, if_pos separator, List.cons_append]
      · rw [if_neg separator, if_neg separator]
        cases split : segments rest with
        | nil =>
            rw [segments_eq_splitOn] at split
            exact absurd split (List.splitOnP_ne_nil _ _)
        | cons first others => rfl

theorem segments_of_notMem {chars : List Char} (free : '/' ∉ chars) : segments chars = [chars] := by
  induction chars with
  | nil => rfl
  | cons c rest inductionHypothesis =>
      obtain ⟨head, tail⟩ : '/' ≠ c ∧ '/' ∉ rest := by simpa using free
      rw [segments, if_neg (Ne.symm head), inductionHypothesis tail]

theorem notMem_of_mem_segments {chars segment : List Char} (member : segment ∈ segments chars) :
    '/' ∉ segment := by
  induction chars generalizing segment with
  | nil =>
      rw [segments, List.mem_singleton] at member
      simp [member]
  | cons c rest inductionHypothesis =>
      rw [segments] at member
      split at member
      · rcases List.mem_cons.mp member with rfl | later
        · simp
        · exact inductionHypothesis later
      · next separator =>
          split at member
          · rw [List.mem_singleton] at member
            simp [member, Ne.symm separator]
          · next first others split =>
              have free := @inductionHypothesis first (by simp [split])
              rcases List.mem_cons.mp member with rfl | later
              · simp [Ne.symm separator, free]
              · exact inductionHypothesis (by simp [split, later])

end SourcePath

namespace Component

/-- A component that a stretch between separators can stand for. -/
def IsSegment (component : Component) : Prop :=
  ofSegment component.text.toList = some component ∧ '/' ∉ component.text.toList

instance (component : Component) : Decidable component.IsSegment :=
  inferInstanceAs (Decidable (_ ∧ _))

/-- A name is written as the stretch that it was read from. -/
theorem ofSegment_eq_some {segment : List Char} {component : Component}
    (read : ofSegment segment = some component) : component.text.toList = segment := by
  unfold ofSegment at read
  split at read
  · cases read
  · cases read
  · cases read
    rfl
  · cases read
    simp [text]

theorem isSegment_of_ofSegment {segment : List Char} {component : Component}
    (read : ofSegment segment = some component) (free : '/' ∉ segment) :
    component.IsSegment := by
  rw [IsSegment, ofSegment_eq_some read]
  exact ⟨read, free⟩

theorem not_isSegment_root : ¬ root.IsSegment := by decide

theorem not_isSegment_current : ¬ current.IsSegment := by decide

end Component

namespace SourcePath

open Component

/-- The components of stretches are components that can stand between separators. -/
theorem isSegment_of_mem_filterMap {chars : List Char} {component : Component}
    (member : component ∈ (segments chars).filterMap ofSegment) : component.IsSegment := by
  obtain ⟨segment, there, read⟩ := List.mem_filterMap.mp member
  exact isSegment_of_ofSegment read (notMem_of_mem_segments there)

/-- Components that can be written: anything that stands between separators, and the root
before them. -/
def Spellable (parts : List Component) : Prop :=
  ∃ rest, (parts = rest ∨ parts = .root :: rest) ∧ ∀ component ∈ rest, component.IsSegment

theorem segments_intercalate {parts : List Component} (nonempty : parts ≠ [])
    (written : ∀ component ∈ parts, component.IsSegment) :
    segments (String.intercalate "/" (parts.map Component.text)).toList =
      parts.map fun component => component.text.toList := by
  rw [segments_eq_splitOn, String.toList_intercalate]
  have separator : "/".toList = ['/'] := rfl
  rw [separator, List.splitOn_intercalate]
  · simp
  · intro segment member
    simp only [List.map_map, List.mem_map] at member
    obtain ⟨component, there, rfl⟩ := member
    exact (written component there).2
  · simpa using nonempty

theorem filterMap_segments_intercalate {parts : List Component}
    (written : ∀ component ∈ parts, component.IsSegment) :
    (segments (String.intercalate "/" (parts.map Component.text)).toList).filterMap ofSegment =
      parts := by
  cases parts with
  | nil => rfl
  | cons first rest =>
      rw [segments_intercalate (by simp) written, List.filterMap_map]
      have read : ∀ component ∈ first :: rest,
          (ofSegment ∘ fun component : Component => component.text.toList) component =
            some component :=
        fun component member => (written component member).1
      rw [List.filterMap_congr read, List.filterMap_some]

theorem componentsOf_absolute (chars : List Char) :
    componentsOf ('/' :: chars) = .root :: (segments chars).filterMap ofSegment := rfl

theorem componentsOf_relative {chars : List Char} (relative : chars.head? ≠ some '/')
    (named : ∀ rest, segments chars ≠ ['.'] :: rest) :
    componentsOf chars = (segments chars).filterMap ofSegment := by
  unfold componentsOf
  split
  · exact absurd rfl relative
  · split
    · next rest split => exact absurd split (named rest)
    · rfl

theorem componentsOf_current {chars : List Char} {rest : List (List Char)}
    (shape : segments chars = ['.'] :: rest) :
    componentsOf chars = .current :: rest.filterMap ofSegment := by
  unfold componentsOf
  split
  · rw [segments, if_pos rfl] at shape
    cases shape
  · rw [shape]
    rfl

/-- Components that can stand between separators are written so. -/
theorem ofComponents_of_written {parts : List Component}
    (written : ∀ component ∈ parts, component.IsSegment) :
    ofComponents parts = ⟨String.intercalate "/" (parts.map Component.text)⟩ := by
  unfold ofComponents
  split
  · exact absurd (written .root (by simp)) not_isSegment_root
  · rfl

/-- What is written is read back. -/
theorem components_ofComponents {parts : List Component} (spellable : Spellable parts) :
    (ofComponents parts).components = parts := by
  obtain ⟨rest, relative | absolute, written⟩ := spellable
  · subst relative
    rw [ofComponents_of_written written, components]
    cases parts with
    | nil => rfl
    | cons first others =>
        have split := segments_intercalate (by simp) written
        have readable := (written first (by simp)).1
        rw [componentsOf_relative, filterMap_segments_intercalate written]
        · intro starts
          obtain ⟨chars, shape⟩ := List.head?_eq_some_iff.mp starts
          rw [shape, segments, if_pos rfl, List.map_cons] at split
          rw [← (List.cons.inj split).1] at readable
          cases readable
        · intro others shape
          rw [shape, List.map_cons] at split
          rw [← (List.cons.inj split).1] at readable
          cases readable
  · subst absolute
    have plain : (ofComponents (.root :: rest)).text.toList =
        '/' :: (String.intercalate "/" (rest.map Component.text)).toList := by
      simp [ofComponents]
    rw [components, plain, componentsOf_absolute, filterMap_segments_intercalate written]

/-- The components of any path: those that can stand between separators, after the root or
a `.` if the path begins so. -/
theorem components_shape (path : SourcePath) :
    ∃ rest, (path.components = rest ∨ path.components = .root :: rest ∨
      path.components = .current :: rest) ∧ ∀ component ∈ rest, component.IsSegment := by
  unfold components componentsOf
  split
  · exact ⟨_, .inr (.inl rfl), fun _ => isSegment_of_mem_filterMap⟩
  · next chars _ =>
      split
      · next rest shape =>
          refine ⟨_, .inr (.inr rfl), fun component member => ?_⟩
          refine @isSegment_of_mem_filterMap path.text.toList component ?_
          rw [shape]
          simpa [ofSegment] using member
      · exact ⟨_, .inl rfl, fun _ => isSegment_of_mem_filterMap⟩

/-- Every name in a path can stand between separators. -/
theorem isSegment_of_mem_components {path : SourcePath} {name : String}
    (member : .name name ∈ path.components) : (Component.name name).IsSegment := by
  obtain ⟨rest, shape, written⟩ := path.components_shape
  apply written
  rcases shape with shape | shape | shape <;> simpa [shape] using member

theorem Spellable.append {parts : List Component} (spellable : Spellable parts)
    {component : Component} (segment : component.IsSegment) : Spellable (parts ++ [component]) := by
  obtain ⟨rest, shape, written⟩ := spellable
  refine ⟨rest ++ [component], ?_, ?_⟩
  · rcases shape with rfl | rfl <;> simp
  · intro other member
    rcases List.mem_append.mp member with before | last
    · exact written other before
    · rwa [List.mem_singleton.mp last]

theorem Spellable.dropLast {parts : List Component} (spellable : Spellable parts) :
    Spellable parts.dropLast := by
  obtain ⟨rest, shape, written⟩ := spellable
  have shorter : ∀ component ∈ rest.dropLast, component.IsSegment :=
    fun component member => written component (List.dropLast_subset rest member)
  rcases shape with rfl | rfl
  · exact ⟨parts.dropLast, .inl rfl, shorter⟩
  · cases rest with
    | nil => exact ⟨[], .inl rfl, by simp⟩
    | cons first others => exact ⟨(first :: others).dropLast, .inr rfl, shorter⟩

theorem Spellable.normalStep {out : List Component} (spellable : Spellable out)
    {component : Component} (segment : component.IsSegment) :
    Spellable (normalStep out component) := by
  cases component with
  | root => exact absurd segment not_isSegment_root
  | current => exact absurd segment not_isSegment_current
  | parent =>
      simp only [SourcePath.normalStep]
      split
      · exact spellable.append segment
      · exact spellable.append segment
      · exact spellable.dropLast
  | name text => exact spellable.append segment

theorem Spellable.foldl_normalStep {parts : List Component}
    (written : ∀ component ∈ parts, component.IsSegment) {out : List Component}
    (spellable : Spellable out) : Spellable (parts.foldl SourcePath.normalStep out) := by
  induction parts generalizing out with
  | nil => exact spellable
  | cons first rest inductionHypothesis =>
      rw [List.foldl_cons]
      exact inductionHypothesis (fun component member => written component (by simp [member]))
        (spellable.normalStep (written first (by simp)))

/-- Normal components can be written. -/
theorem spellable_normalComponents (path : SourcePath) :
    Spellable (normalComponents path.components) := by
  have empty : Spellable [] := ⟨[], .inl rfl, by simp⟩
  have root : Spellable [.root] := ⟨[], .inr rfl, by simp⟩
  obtain ⟨rest, shape, written⟩ := path.components_shape
  rcases shape with shape | shape | shape
  · rw [shape]
    exact .foldl_normalStep written empty
  · rw [shape]
    exact .foldl_normalStep written root
  · rw [shape]
    exact .foldl_normalStep written empty

@[simp]
theorem components_normalize (path : SourcePath) :
    path.normalize.components = normalComponents path.components :=
  components_ofComponents path.spellable_normalComponents

/-- A separator inside a path divides its components. -/
theorem componentsOf_append_separator {left : List Char} (nonempty : left ≠ [])
    (right : List Char) :
    componentsOf (left ++ '/' :: right) =
      componentsOf left ++ (segments right).filterMap ofSegment := by
  have split := segments_append_separator left right
  by_cases absolute : left.head? = some '/'
  · obtain ⟨rest, rfl⟩ := List.head?_eq_some_iff.mp absolute
    rw [List.cons_append, componentsOf_absolute, componentsOf_absolute,
      segments_append_separator, List.filterMap_append, List.cons_append]
  · by_cases current : ∃ rest, segments left = ['.'] :: rest
    · obtain ⟨rest, shape⟩ := current
      rw [shape, List.cons_append] at split
      rw [componentsOf_current split, componentsOf_current shape, List.filterMap_append,
        List.cons_append]
    · have named : ∀ rest, segments left ≠ ['.'] :: rest := fun rest shape => current ⟨rest, shape⟩
      rw [componentsOf_relative absolute named, componentsOf_relative, split,
        List.filterMap_append]
      · rwa [List.head?_append_of_ne_nil _ nonempty]
      · intro rest shape
        rw [split] at shape
        cases first : segments left with
        | nil =>
            rw [segments_eq_splitOn] at first
            exact List.splitOnP_ne_nil _ _ first
        | cons head others =>
            rw [first, List.cons_append] at shape
            exact named others (by rw [first, (List.cons.inj shape).1])

/-- So it is behind a `.` at the very beginning. -/
theorem components_ofComponents_current {rest : List Component}
    (written : ∀ component ∈ rest, component.IsSegment) :
    (ofComponents (.current :: rest)).components = .current :: rest := by
  cases rest with
  | nil => rfl
  | cons first others =>
      have text : (ofComponents (.current :: first :: others)).text.toList =
          ['.'] ++ '/' ::
            (String.intercalate "/" ((first :: others).map Component.text)).toList := by
        simp [ofComponents, String.toList_intercalate, Component.text, List.intercalate]
      rw [components, text, componentsOf_append_separator (by simp),
        filterMap_segments_intercalate written]
      rfl

/-- The plain spelling of a path's place. -/
def plain (path : SourcePath) : SourcePath :=
  ofComponents path.components

/-- The plain spelling denotes the same place. -/
theorem components_plain (path : SourcePath) : path.plain.components = path.components := by
  rw [plain]
  obtain ⟨rest, relative | absolute | current, written⟩ := path.components_shape
  · exact components_ofComponents ⟨rest, .inl relative, written⟩
  · exact components_ofComponents ⟨rest, .inr absolute, written⟩
  · rw [current]
    exact components_ofComponents_current written

theorem plain_congr {left right : SourcePath} (same : left.components = right.components) :
    left.plain = right.plain := by
  rw [plain, plain, same]

/-- The path is written plainly. -/
def IsPlain (path : SourcePath) : Prop :=
  path.plain = path

theorem isPlain_plain (path : SourcePath) : path.plain.IsPlain :=
  plain_congr path.components_plain

/-- A place has one plain spelling. -/
theorem IsPlain.eq_of_components {left right : SourcePath} (leftPlain : left.IsPlain)
    (rightPlain : right.IsPlain) (same : left.components = right.components) : left = right := by
  rw [← leftPlain, ← rightPlain, plain, plain, same]

theorem isPlain_ofComponents {parts : List Component} (spellable : Spellable parts) :
    (ofComponents parts).IsPlain := by
  rw [IsPlain, plain, components_ofComponents spellable]

/-- Normal paths are plain. -/
theorem isPlain_normalize (path : SourcePath) : path.normalize.IsPlain :=
  isPlain_ofComponents path.spellable_normalComponents

theorem isPlain_combine (base relative : SourcePath) : (base.combine relative).IsPlain :=
  isPlain_normalize _

/-- The parent of a normal path is plain. -/
theorem isPlain_parent_normalize {path parent : SourcePath}
    (above : path.normalize.parent = some parent) : parent.IsPlain := by
  unfold SourcePath.parent at above
  split at above
  · cases above
  · cases above
  · cases above
    rw [components_normalize]
    exact isPlain_ofComponents path.spellable_normalComponents.dropLast

/-- A path has a file name exactly if it ends in that name. -/
theorem fileName_eq_some_iff {path : SourcePath} {name : String} :
    path.fileName = some name ↔ ∃ above, path.components = above ++ [.name name] := by
  rw [fileName, ← List.getLast?_eq_some_iff]
  split
  · next text last => rw [last, Option.some_inj, Option.some_inj, Component.name.injEq]
  · next unnamed => exact iff_of_false (fun absent => by cases absent) (unnamed name)

/-- The parent of a path that ends in a name is what stands before the name. -/
theorem parent_of_components {path : SourcePath} {above : List Component} {name : String}
    (shape : path.components = above ++ [.name name]) :
    path.parent = some (ofComponents above) := by
  rw [parent, shape, List.getLast?_concat, List.dropLast_concat]

/-- The parent of a path is what stands before its last component. -/
theorem components_parent {path parent : SourcePath} (above : path.parent = some parent) :
    parent.components = path.components.dropLast := by
  have written : parent = ofComponents path.components.dropLast := by
    unfold SourcePath.parent at above
    split at above <;> cases above
    rfl
  rw [written]
  obtain ⟨rest, relative | absolute | current, segments⟩ := path.components_shape
  · exact components_ofComponents (Spellable.dropLast ⟨rest, .inl relative, segments⟩)
  · exact components_ofComponents (Spellable.dropLast ⟨rest, .inr absolute, segments⟩)
  · rw [current]
    cases rest with
    | nil => rfl
    | cons first others =>
        exact components_ofComponents_current fun component member =>
          segments component (List.dropLast_subset _ member)

/-- A path without a parent has nothing before its last component. -/
theorem dropLast_components_of_parent {path : SourcePath} (top : path.parent = none) :
    path.components.dropLast = [] := by
  unfold SourcePath.parent at top
  split at top
  · next nothing => rw [List.getLast?_eq_none_iff.mp nothing, List.dropLast_nil]
  · next last =>
      obtain ⟨rest, shape, segments⟩ := path.components_shape
      -- The root is no segment, so nothing stands before it.
      have alone : Component.root ∉ rest := fun member =>
        not_isSegment_root (segments .root member)
      have bare : ∀ first : Component, (first :: rest).getLast? = some .root → rest = [] := by
        intro first last
        cases rest with
        | nil => rfl
        | cons second others =>
            rw [List.getLast?_cons_cons] at last
            exact absurd (List.mem_of_getLast? last) alone
      rcases shape with shape | shape | shape <;> rw [shape] at last ⊢
      · exact absurd (List.mem_of_getLast? last) alone
      · rw [bare _ last, List.dropLast_singleton]
      · rw [bare _ last, List.dropLast_singleton]
  · cases top

/-- Every text but the empty one stands for at least one component. -/
theorem components_ne_nil {path : SourcePath} (nonempty : path.text ≠ "") :
    path.components ≠ [] := by
  have written : path.text.toList ≠ [] := by simpa using nonempty
  obtain ⟨c, rest, chars⟩ := List.exists_cons_of_ne_nil written
  rw [components, chars]
  by_cases absolute : c = '/'
  · rw [absolute, componentsOf_absolute]
    exact List.cons_ne_nil _ _
  by_cases current : ∃ others, segments (c :: rest) = ['.'] :: others
  · obtain ⟨others, shape⟩ := current
    rw [componentsOf_current shape]
    exact List.cons_ne_nil _ _
  · -- The first stretch is neither empty nor a single dot, so a component stands for it.
    obtain ⟨first, others, shape⟩ :
        ∃ first others, segments (c :: rest) = (c :: first) :: others := by
      rw [segments, if_neg absolute]
      split <;> exact ⟨_, _, rfl⟩
    rw [componentsOf_relative (by simpa using absolute) (not_exists.mp current), shape]
    cases read : ofSegment (c :: first) with
    | some component =>
        rw [List.filterMap_cons_some read]
        exact List.cons_ne_nil _ _
    | none =>
        unfold ofSegment at read
        split at read
        · next nothing => cases nothing
        · next dot => exact absurd ⟨others, by rw [shape, dot]⟩ current
        · cases read
        · cases read

/-- Joining a relative path appends its components. -/
theorem components_join {base relative : SourcePath} (nonempty : base.text ≠ "")
    (isRelative : relative.isAbsolute = false) :
    (base.join relative).components =
      base.components ++ (segments relative.text.toList).filterMap ofSegment := by
  have written : base.text.toList ≠ [] := by simpa using nonempty
  rw [join, isRelative, if_neg (by decide)]
  split
  · next closed =>
      have closed : base.text.toList.getLast? = some '/' := by simpa [nonempty] using closed
      obtain ⟨before, shape⟩ := List.getLast?_eq_some_iff.mp closed
      have joined : (base.text ++ relative.text).toList =
          before ++ '/' :: relative.text.toList := by
        simp [shape]
      rw [components, components, joined, shape]
      by_cases bare : before = []
      · subst bare
        rfl
      · rw [componentsOf_append_separator bare, componentsOf_append_separator bare]
        simp [segments, ofSegment]
  · have joined : (base.text ++ "/" ++ relative.text).toList =
        base.text.toList ++ '/' :: relative.text.toList := by
      simp
    rw [components, components, joined, componentsOf_append_separator written]

/-- A name that can stand between separators is a path of that name alone. -/
theorem components_name {name : String} (segment : (Component.name name).IsSegment) :
    (SourcePath.mk name).isAbsolute = false ∧
      (SourcePath.mk name).components = [.name name] ∧
      (segments name.toList).filterMap ofSegment = [.name name] := by
  have readable : ofSegment name.toList = some (.name name) := segment.1
  have free : '/' ∉ name.toList := segment.2
  have relative : name.toList.head? ≠ some '/' := fun starts => by
    obtain ⟨rest, chars⟩ := List.head?_eq_some_iff.mp starts
    exact free (chars ▸ List.mem_cons_self)
  have whole : (segments name.toList).filterMap ofSegment = [.name name] := by
    rw [segments_of_notMem free]
    exact List.filterMap_cons_some readable
  refine ⟨by simpa [isAbsolute] using relative, ?_, whole⟩
  refine (componentsOf_relative relative fun rest shape => ?_).trans whole
  rw [segments_of_notMem free, List.cons.injEq] at shape
  rw [shape.1] at readable
  cases readable

/-- Joining a name appends it, to the empty path as well. -/
theorem components_join_name (base : SourcePath) {name : String}
    (segment : (Component.name name).IsSegment) :
    (base.join ⟨name⟩).components = base.components ++ [.name name] := by
  obtain ⟨isRelative, alone, whole⟩ := components_name segment
  by_cases empty : base.text = ""
  · have nothing : base.components = [] := by rw [components, empty]; rfl
    rw [join, isRelative, if_neg Bool.false_ne_true, empty, nothing]
    simpa using alone
  · rw [components_join empty isRelative, whole]

theorem within_iff {path top : SourcePath} :
    path.within top = true ↔ top.components <+: path.components :=
  List.isPrefixOf_iff_prefix

/-- An absolute path without `.` and `..` leads through names only. -/
def IsStraight (path : SourcePath) : Prop :=
  ∃ names : List String, path.components = .root :: names.map .name

/-- Names are applied by writing them behind. -/
theorem foldl_normalStep_names (names : List String) (out : List Component) :
    (names.map .name).foldl normalStep out = out ++ names.map .name := by
  induction names generalizing out with
  | nil => simp
  | cons first others inductionHypothesis =>
      rw [List.map_cons, List.foldl_cons, inductionHypothesis, normalStep, List.append_assoc]
      rfl

theorem normalComponents_straight (names : List String) :
    normalComponents (.root :: names.map .name) = .root :: names.map .name :=
  foldl_normalStep_names names [.root]

theorem normalComponents_append_names (parts : List Component) (names : List String) :
    normalComponents (parts ++ names.map .name) = normalComponents parts ++ names.map .name := by
  rw [normalComponents, List.foldl_append, foldl_normalStep_names, ← normalComponents]

/-- Entering any directory by name leads one name below the place that it is when normalised. -/
theorem components_combine_name (directory : SourcePath) {name : String}
    (segment : (Component.name name).IsSegment) :
    (directory.combine ⟨name⟩).components =
      normalComponents directory.components ++ [.name name] := by
  rw [combine, components_normalize, directory.components_join_name segment]
  exact normalComponents_append_names _ [name]

/-- Entering a straight directory by name appends the name. -/
theorem IsStraight.components_combine {directory : SourcePath} (straight : directory.IsStraight)
    {name : String} (segment : (Component.name name).IsSegment) :
    (directory.combine ⟨name⟩).components = directory.components ++ [.name name] := by
  obtain ⟨names, shape⟩ := straight
  rw [directory.components_combine_name segment, shape, normalComponents_straight]

theorem IsStraight.combine {directory : SourcePath} (straight : directory.IsStraight)
    {name : String} (segment : (Component.name name).IsSegment) :
    (directory.combine ⟨name⟩).IsStraight := by
  obtain ⟨names, shape⟩ := straight
  exact ⟨names ++ [name], by rw [IsStraight.components_combine ⟨names, shape⟩ segment, shape]; simp⟩

end SourcePath

end ScriptAnalysis
