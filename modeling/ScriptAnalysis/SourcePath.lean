/-!
# Paths

A `SourcePath` keeps the text it was written with, and stands for the list of its
`components`: repeated and trailing separators vanish, a `.` vanishes unless it is
the very first component, and `..` stays. Two paths are the same place when their
components are equal, and paths are ordered component by component.

The text of a path is a string, so only paths in UTF-8 are represented. What is done with
a path or a directory entry whose name is no such text is not modelled.
-/

namespace ScriptAnalysis

/-- One step of a path. -/
inductive Component where
  /-- The separator at the beginning of an absolute path. -/
  | root
  /-- A `.` at the very beginning of a relative path. -/
  | current
  /-- A `..`. -/
  | parent
  /-- An ordinary file or directory name. -/
  | name (text : String)
  deriving DecidableEq, Repr

namespace Component

/-- The component that a stretch between separators stands for: none if it is empty or
a single dot. -/
def ofSegment : List Char → Option Component
  | [] => none
  | ['.'] => none
  | ['.', '.'] => some .parent
  | segment => some (.name (String.ofList segment))

/-- How the component is written; the root is written by the separator after it. -/
def text : Component → String
  | .root => ""
  | .current => "."
  | .parent => ".."
  | .name text => text

/-- The place of each kind of component in the order of paths. -/
def rank : Component → Nat
  | .root => 0
  | .current => 1
  | .parent => 2
  | .name _ => 3

/-- Components are ordered by kind and names by their bytes. -/
def order (left right : Component) : Ordering :=
  (compare left.rank right.rank).then (compare left.text right.text)

/-- Component lists are ordered by their first difference. -/
def orderLists : List Component → List Component → Ordering
  | [], [] => .eq
  | [], _ :: _ => .lt
  | _ :: _, [] => .gt
  | left :: lefts, right :: rights => (left.order right).then (orderLists lefts rights)

end Component

/-- A path as it was written. -/
structure SourcePath where
  text : String
  deriving DecidableEq, Repr

namespace SourcePath

/-- The stretches between separators; a text without separator is one stretch. -/
def segments : List Char → List (List Char)
  | [] => [[]]
  | c :: rest =>
      if c = '/' then [] :: segments rest
      else
        match segments rest with
        | [] => [[c]]
        | first :: others => (c :: first) :: others

/-- The components of a path with the given characters. -/
def componentsOf : List Char → List Component
  | '/' :: rest => .root :: (segments rest).filterMap Component.ofSegment
  | chars =>
      match segments chars with
      | ['.'] :: rest => .current :: rest.filterMap Component.ofSegment
      | all => all.filterMap Component.ofSegment

/-- The components that the path stands for. -/
def components (path : SourcePath) : List Component :=
  componentsOf path.text.toList

/-- The plain spelling of a component list. -/
def ofComponents : List Component → SourcePath
  | .root :: rest => ⟨"/" ++ String.intercalate "/" (rest.map Component.text)⟩
  | parts => ⟨String.intercalate "/" (parts.map Component.text)⟩

/-- Two spellings of one place. -/
def Same (left right : SourcePath) : Prop :=
  left.components = right.components

instance (left right : SourcePath) : Decidable (left.Same right) :=
  inferInstanceAs (Decidable (left.components = right.components))

/-- Paths are ordered as their component lists. -/
def order (left right : SourcePath) : Ordering :=
  Component.orderLists left.components right.components

/-- Whether the path begins at the root. -/
def isAbsolute (path : SourcePath) : Bool :=
  path.text.toList.head? == some '/'

/-- Write `relative` after `base`, with one separator between them if `base` needs it.
An absolute right side replaces the base. -/
def join (base relative : SourcePath) : SourcePath :=
  if relative.isAbsolute then relative
  else if base.text.isEmpty || base.text.toList.getLast? == some '/' then
    ⟨base.text ++ relative.text⟩
  else ⟨base.text ++ "/" ++ relative.text⟩

/-- The last component, if it is a name. -/
def fileName (path : SourcePath) : Option String :=
  match path.components.getLast? with
  | some (.name text) => some text
  | _ => none

/-- The path without its last component. The root and the empty path have none. -/
def parent (path : SourcePath) : Option SourcePath :=
  match path.components.getLast? with
  | none => none
  | some .root => none
  | some _ => some (ofComponents path.components.dropLast)

/-- The part of a name after its last dot; none without a dot, and none if the only dot
comes first. -/
def extensionOf (name : List Char) : Option (List Char) :=
  let after := (name.reverse.takeWhile (· ≠ '.')).reverse
  match (name.reverse.dropWhile (· ≠ '.')).reverse.dropLast with
  | [] => none
  | _ :: _ => some after

/-- The extension of the last component. -/
def extension (path : SourcePath) : Option String :=
  path.fileName.bind fun name => (extensionOf name.toList).map String.ofList

/-- One step of normalisation: `.` adds nothing, and `..` takes the last component
away, unless there is none or it is the root. -/
def normalStep (out : List Component) : Component → List Component
  | .current => out
  | .parent =>
      match out.getLast? with
      | none => out ++ [.parent]
      | some .root => out ++ [.parent]
      | some _ => out.dropLast
  | .root => [.root]
  | .name text => out ++ [.name text]

/-- The components that are left when every `.` and `..` has been applied. -/
def normalComponents (parts : List Component) : List Component :=
  parts.foldl normalStep []

/-- The path with every `.` and `..` applied to the components before it, without a look
at any store. -/
def normalize (path : SourcePath) : SourcePath :=
  ofComponents (normalComponents path.components)

/-- Write `relative` after `base` and normalise. -/
def combine (base relative : SourcePath) : SourcePath :=
  (base.join relative).normalize

/-- Whether the path is `top` or lies anywhere below it, by whole components. -/
def within (path top : SourcePath) : Bool :=
  top.components.isPrefixOf path.components

end SourcePath

end ScriptAnalysis
