import Mathlib.Data.List.Induction
import ScriptAnalysis.Proofs.Path.Spelling

/-!
# Where paths lead

A path leads from a directory some levels up and then down through names: its `Route`. Applying
a path to a directory depends on its route alone (`foldl_normalStep_along`). A normal path
keeps the names of the route, but of the levels up only one if their number is odd
(`components_normalize_eq`), since `..` also takes back an earlier `..`. So normalising leaves
the meaning of a relative path alone exactly if it leads up by at most one level. The base that
a relative path is combined with may be normalised first, as the path is applied to the normal base
step by step (`components_combine_relative`).
-/

namespace ScriptAnalysis

/-- Some levels up, and then down through names. -/
structure Route where
  up : Nat
  down : List String
  deriving DecidableEq, Repr

namespace Route

/-- One component further: `..` takes back the last name, and leads up if there is none. -/
def step (route : Route) : Component → Route
  | .name text => { route with down := route.down ++ [text] }
  | .parent =>
      match route.down.getLast? with
      | none => { route with up := route.up + 1 }
      | some _ => { route with down := route.down.dropLast }
  | _ => route

/-- The route along components. -/
def along (parts : List Component) : Route :=
  parts.foldl step ⟨0, []⟩

/-- The components that lead along the route and no further. -/
def parts (route : Route) : List Component :=
  List.replicate route.up .parent ++ route.down.map .name

/-- What a normal path keeps of the route: two levels up cancel. -/
def kept (route : Route) : Route :=
  { route with up := route.up % 2 }

theorem along_concat (parts : List Component) (component : Component) :
    along (parts ++ [component]) = (along parts).step component := by
  rw [along, List.foldl_append]
  rfl

theorem along_replicate_parent (count : Nat) :
    along (List.replicate count .parent) = ⟨count, []⟩ := by
  induction count with
  | zero => rfl
  | succ count inductionHypothesis =>
      rw [List.replicate_succ', along_concat, inductionHypothesis]
      rfl

/-- The components of a route lead along it. -/
theorem along_parts (route : Route) : along route.parts = route := by
  obtain ⟨up, down⟩ := route
  induction down using List.reverseRecOn with
  | nil => simpa [parts] using along_replicate_parent up
  | append_singleton names name inductionHypothesis =>
      have longer : parts ⟨up, names ++ [name]⟩ = parts ⟨up, names⟩ ++ [.name name] := by
        simp [parts]
      rw [longer, along_concat, inductionHypothesis]
      rfl

end Route

namespace SourcePath

open Component

/-- `..` takes back a name. -/
@[simp]
theorem normalStep_concat_parent (out : List Component) (text : String) :
    normalStep (out ++ [.name text]) .parent = out := by
  simp [normalStep]

/-- Normalising keeps, after the root if there is one, what is kept of the route. -/
theorem foldl_normalStep_eq_kept {start : List Component} (top : start = [] ∨ start = [.root])
    {parts : List Component} (rootless : .root ∉ parts) :
    parts.foldl normalStep start = start ++ (Route.along parts).kept.parts := by
  induction parts using List.reverseRecOn with
  | nil => simp [Route.along, Route.kept, Route.parts]
  | append_singleton before component inductionHypothesis =>
      have earlier := inductionHypothesis fun member => rootless (by simp [member])
      rw [List.foldl_append, earlier, Route.along_concat]
      generalize Route.along before = route
      obtain ⟨up, down⟩ := route
      cases component with
      | root => exact absurd (by simp) rootless
      | current => rfl
      | name text => simp [normalStep, Route.step, Route.kept, Route.parts]
      | parent =>
          cases down using List.reverseRecOn with
          | nil =>
              rcases Nat.mod_two_eq_zero_or_one up with even | odd
              · have next : (up + 1) % 2 = 1 := by omega
                rcases top with rfl | rfl <;>
                  simp [normalStep, Route.step, Route.kept, Route.parts, even, next]
              · have next : (up + 1) % 2 = 0 := by omega
                simp [normalStep, Route.step, Route.kept, Route.parts, odd, next]
          | append_singleton names name =>
              simp [normalStep, Route.step, Route.kept, Route.parts]

/-- To apply components to any others is to apply the components of their route. -/
theorem foldl_normalStep_along (out : List Component) {parts : List Component}
    (rootless : .root ∉ parts) :
    parts.foldl normalStep out = (Route.along parts).parts.foldl normalStep out := by
  induction parts using List.reverseRecOn with
  | nil => rfl
  | append_singleton before component inductionHypothesis =>
      have earlier := inductionHypothesis fun member => rootless (by simp [member])
      rw [List.foldl_append, earlier, Route.along_concat]
      generalize Route.along before = route
      obtain ⟨up, down⟩ := route
      cases component with
      | root => exact absurd (by simp) rootless
      | current => rfl
      | name text => simp [Route.step, Route.parts]
      | parent =>
          cases down using List.reverseRecOn with
          | nil => simp [Route.step, Route.parts, List.replicate_succ']
          | append_singleton names name => simp [Route.step, Route.parts, normalStep]

/-- From a directory that lies deep enough a route takes away one name for each level. -/
theorem foldl_normalStep_deep {names : List String} {route : Route}
    (deep : route.up ≤ names.length) :
    route.parts.foldl normalStep (.root :: names.map .name) =
      .root :: (names.take (names.length - route.up) ++ route.down).map .name := by
  obtain ⟨up, down⟩ := route
  have climbed : (List.replicate up Component.parent).foldl normalStep (.root :: names.map .name) =
      .root :: (names.take (names.length - up)).map .name := by
    induction up with
    | zero => simp
    | succ up inductionHypothesis =>
        have deep : up < names.length := deep
        have room : names.length - up = names.length - (up + 1) + 1 := by omega
        have inside : names.length - (up + 1) < names.length := by omega
        rw [List.replicate_succ', List.foldl_append, inductionHypothesis (Nat.le_of_lt deep), room,
          List.take_succ_eq_append_getElem inside, List.map_append, ← List.cons_append]
        exact normalStep_concat_parent _ _
  rw [Route.parts, List.foldl_append, climbed, foldl_normalStep_names]
  simp

/-- The components between separators: all but the root, or a `.` at the very beginning. -/
def steps (path : SourcePath) : List Component :=
  (segments path.text.toList).filterMap ofSegment

theorem root_notMem_steps (path : SourcePath) : .root ∉ path.steps :=
  fun member => not_isSegment_root (isSegment_of_mem_filterMap member)

theorem exists_text_of_absolute {path : SourcePath} (absolute : path.isAbsolute = true) :
    ∃ rest, path.text.toList = '/' :: rest :=
  List.head?_eq_some_iff.mp (by simpa [isAbsolute] using absolute)

theorem components_of_absolute {path : SourcePath} (absolute : path.isAbsolute = true) :
    path.components = .root :: path.steps := by
  obtain ⟨rest, chars⟩ := exists_text_of_absolute absolute
  rw [components, steps, chars, componentsOf_absolute, segments, if_pos rfl]
  rfl

theorem components_of_relative {path : SourcePath} (relative : path.isAbsolute = false) :
    path.components = path.steps ∨ path.components = .current :: path.steps := by
  have start : path.text.toList.head? ≠ some '/' := by simpa [isAbsolute] using relative
  by_cases current : ∃ rest, segments path.text.toList = ['.'] :: rest
  · obtain ⟨rest, shape⟩ := current
    right
    rw [components, componentsOf_current shape, steps, shape]
    rfl
  · left
    exact componentsOf_relative start fun rest shape => current ⟨rest, shape⟩

/-- Where the path leads from the directory that it is applied to. -/
def route (path : SourcePath) : Route :=
  Route.along path.components

theorem route_eq_along_steps (path : SourcePath) : path.route = Route.along path.steps := by
  cases absolute : path.isAbsolute with
  | true =>
      rw [route, components_of_absolute absolute]
      rfl
  | false =>
      rcases components_of_relative absolute with plain | current
      · rw [route, plain]
      · rw [route, current]
        rfl

/-- The root, if the path begins there. -/
def top (path : SourcePath) : List Component :=
  if path.isAbsolute then [.root] else []

/-- Normalising applies the steps one after the other, to the root or to nothing. -/
theorem components_normalize_eq_foldl (path : SourcePath) :
    path.normalize.components = path.steps.foldl normalStep path.top := by
  rw [components_normalize, normalComponents, top]
  cases absolute : path.isAbsolute with
  | true =>
      rw [components_of_absolute absolute]
      rfl
  | false =>
      rcases components_of_relative absolute with plain | current
      · rw [plain]
        rfl
      · rw [current]
        rfl

/-- A normal path is the root, if the path begins there, and what is kept of the route. -/
theorem components_normalize_eq (path : SourcePath) :
    path.normalize.components = path.top ++ path.route.kept.parts := by
  rw [components_normalize_eq_foldl, route_eq_along_steps]
  refine foldl_normalStep_eq_kept ?_ path.root_notMem_steps
  rw [top]
  cases path.isAbsolute
  · exact .inl rfl
  · exact .inr rfl

theorem isAbsolute_iff_root_mem (path : SourcePath) :
    path.isAbsolute = true ↔ .root ∈ path.components := by
  cases absolute : path.isAbsolute with
  | true => simp [components_of_absolute absolute]
  | false => rcases components_of_relative absolute with shape | shape <;>
      simp [shape, root_notMem_steps]

@[simp]
theorem isAbsolute_normalize (path : SourcePath) :
    path.normalize.isAbsolute = path.isAbsolute := by
  rw [Bool.eq_iff_iff, isAbsolute_iff_root_mem, components_normalize_eq, top]
  cases path.isAbsolute <;> simp [Route.parts]

@[simp]
theorem top_normalize (path : SourcePath) : path.normalize.top = path.top := by
  rw [top, isAbsolute_normalize, top]

/-- The root in front does not count for the route. -/
theorem along_top_append (path : SourcePath) (route : Route) :
    Route.along (path.top ++ route.parts) = route := by
  rw [top]
  cases path.isAbsolute <;> exact Route.along_parts route

@[simp]
theorem route_normalize (path : SourcePath) : path.normalize.route = path.route.kept := by
  rw [route, components_normalize_eq, along_top_append]

/-- A normal path is normal. -/
@[simp]
theorem normalize_normalize (path : SourcePath) : path.normalize.normalize = path.normalize := by
  refine (isPlain_normalize _).eq_of_components (isPlain_normalize _) ?_
  rw [components_normalize_eq, components_normalize_eq, top_normalize, route_normalize]
  simp [Route.kept]

theorem normalize_of_combine (base path : SourcePath) :
    (base.combine path).normalize = base.combine path :=
  normalize_normalize _

/-- Behind the base come the steps of a relative path. -/
theorem steps_join (base : SourcePath) {path : SourcePath} (relative : path.isAbsolute = false) :
    (base.join path).steps = base.steps ++ path.steps := by
  simp only [steps]
  rw [join, relative, if_neg Bool.false_ne_true]
  split
  · next ready =>
      by_cases empty : base.text = ""
      · simp [empty, segments, ofSegment]
      · have closed : base.text.toList.getLast? = some '/' := by simpa [empty] using ready
        obtain ⟨before, shape⟩ := List.getLast?_eq_some_iff.mp closed
        have nothing : (segments []).filterMap ofSegment = [] := rfl
        rw [String.toList_append, shape, List.append_assoc, List.singleton_append,
          segments_append_separator, segments_append_separator, List.filterMap_append,
          List.filterMap_append, nothing, List.append_nil]
  · rw [String.toList_append, String.toList_append, List.append_assoc]
    exact (congrArg _ (segments_append_separator ..)).trans List.filterMap_append

theorem isAbsolute_join (base : SourcePath) {path : SourcePath}
    (relative : path.isAbsolute = false) : (base.join path).isAbsolute = base.isAbsolute := by
  by_cases empty : base.text = ""
  · have same : base.join path = path := by simp [join, relative, empty]
    rw [same, relative, isAbsolute, empty]
    rfl
  · have written : base.text.toList ≠ [] := by simpa using empty
    have starts : ∀ chars, (base.text.toList ++ chars).head? = base.text.toList.head? :=
      fun _ => List.head?_append_of_ne_nil _ written
    rw [join, relative, if_neg Bool.false_ne_true]
    split <;> simp only [isAbsolute, String.toList_append, List.append_assoc, starts]

theorem combine_of_absolute (base : SourcePath) {path : SourcePath}
    (absolute : path.isAbsolute = true) : base.combine path = path.normalize := by
  rw [combine, join, if_pos absolute]

/-- It does not matter in what spelling an absolute path replaces the base. -/
theorem combine_normalize_of_absolute (base : SourcePath) {path : SourcePath}
    (absolute : path.isAbsolute = true) : base.combine path.normalize = base.combine path := by
  rw [combine_of_absolute base (by rwa [isAbsolute_normalize]),
    combine_of_absolute base absolute, normalize_normalize]

theorem IsStraight.isAbsolute {base : SourcePath} (straight : base.IsStraight) :
    base.isAbsolute = true := by
  obtain ⟨names, shape⟩ := straight
  simp [isAbsolute_iff_root_mem, shape]

/-- A relative path is applied step by step to the normal base. -/
theorem components_combine_relative (base : SourcePath) {path : SourcePath}
    (relative : path.isAbsolute = false) :
    (base.combine path).components = path.steps.foldl normalStep base.normalize.components := by
  rw [combine, components_normalize_eq_foldl, steps_join base relative, List.foldl_append, top,
    isAbsolute_join base relative, ← top, ← components_normalize_eq_foldl]

/-- From a straight directory a relative path leads along its route. -/
theorem IsStraight.components_combine_relative {base : SourcePath} (straight : base.IsStraight)
    {path : SourcePath} (relative : path.isAbsolute = false) :
    (base.combine path).components = path.route.parts.foldl normalStep base.components := by
  obtain ⟨names, shape⟩ := straight
  rw [base.components_combine_relative relative, components_normalize, shape,
    normalComponents_straight, route_eq_along_steps]
  exact foldl_normalStep_along _ path.root_notMem_steps

/-- A relative path leads from a directory that lies deep enough to the place that its route
leads to. -/
theorem components_combine_deep {names : List String} {base path : SourcePath}
    (directory : base.components = .root :: names.map .name) (relative : path.isAbsolute = false)
    (deep : path.route.up ≤ names.length) :
    (base.combine path).components =
      .root :: (names.take (names.length - path.route.up) ++ path.route.down).map .name := by
  have straight : base.IsStraight := ⟨names, directory⟩
  rw [straight.components_combine_relative relative, directory, foldl_normalStep_deep deep]

/-- Nothing is lost if all levels up are kept. -/
theorem IsStraight.combine_normalize {base : SourcePath} (straight : base.IsStraight)
    {path : SourcePath} (kept : path.route.kept = path.route) :
    base.combine path.normalize = base.combine path := by
  refine (isPlain_combine _ _).eq_of_components (isPlain_combine _ _) ?_
  cases absolute : path.isAbsolute with
  | true => rw [combine_normalize_of_absolute base absolute]
  | false =>
      rw [straight.components_combine_relative absolute,
        straight.components_combine_relative (by rwa [isAbsolute_normalize]), route_normalize, kept]

/-- There are straight directories of every depth. -/
theorem exists_straight (depth : Nat) :
    ∃ (base : SourcePath) (names : List String),
      base.components = .root :: names.map .name ∧ names.length = depth := by
  refine ⟨_, List.replicate depth "d", components_ofComponents ⟨_, .inr rfl, ?_⟩,
    List.length_replicate⟩
  intro component member
  rw [List.map_replicate] at member
  rw [List.eq_of_mem_replicate member]
  decide

/-- A relative path that leads up by more than one level and its normal path part ways in a
directory that lies just deep enough. -/
theorem exists_combine_normalize_ne {path : SourcePath} (relative : path.isAbsolute = false)
    (climbs : 1 < path.route.up) :
    ∃ base : SourcePath, base.IsStraight ∧ base.combine path.normalize ≠ base.combine path := by
  obtain ⟨base, names, directory, depth⟩ := exists_straight path.route.up
  refine ⟨base, ⟨names, directory⟩, fun same => ?_⟩
  have normalRelative : path.normalize.isAbsolute = false := by rwa [isAbsolute_normalize]
  have kept : path.normalize.route.up = path.route.up % 2 := by rw [route_normalize, Route.kept]
  have fewer : path.normalize.route.up ≤ names.length := by
    rw [kept, depth]
    exact Nat.mod_le _ 2
  have lengths := congrArg (fun place => place.components.length) same
  simp only [components_combine_deep directory normalRelative fewer,
    components_combine_deep directory relative (Nat.le_of_eq depth.symm), kept, depth] at lengths
  simp only [route_normalize, Route.kept, List.length_cons, List.length_map, List.length_append,
    List.length_take, depth] at lengths
  omega

/-- Normalising a path first leaves every place that it denotes, from whatever straight
directory, exactly if the path is absolute or leads up by at most one level. -/
theorem combine_normalize_iff (path : SourcePath) :
    (∀ base : SourcePath, base.IsStraight → base.combine path.normalize = base.combine path) ↔
      path.isAbsolute = true ∨ path.route.up ≤ 1 := by
  constructor
  · intro same
    by_contra neither
    obtain ⟨relative, climbs⟩ := not_or.mp neither
    obtain ⟨base, straight, differ⟩ :=
      exists_combine_normalize_ne (by simpa using relative) (Nat.lt_of_not_le climbs)
    exact differ (same base straight)
  · rintro (absolute | low) base straight
    · exact combine_normalize_of_absolute base absolute
    · refine straight.combine_normalize ?_
      rw [Route.kept, Nat.mod_eq_of_lt (Nat.lt_succ_of_le low)]

/-- Two levels up from a directory is the root, but normalising takes the two levels away. -/
theorem combine_normalize_ne_two_levels_up :
    (SourcePath.mk "/a/b").IsStraight ∧
      (SourcePath.mk "/a/b").combine (SourcePath.mk "../..").normalize ≠
        (SourcePath.mk "/a/b").combine ⟨"../.."⟩ :=
  ⟨⟨["a", "b"], by decide⟩, by decide +kernel⟩

end SourcePath

end ScriptAnalysis
