import ScriptAnalysis.Store
import ScriptAnalysis.Text.Distinct

/-!
# Stores in memory

A `Tree` is a store that lives in memory: texts and directories under their component
lists. Writing a file creates every directory above it, and removing a directory takes
everything below it away.
-/

namespace ScriptAnalysis

/-- Files and directories under their component lists. -/
structure Tree where
  files : List (List Component × String)
  directories : List (List Component)
  deriving Repr

namespace Tree

/-- The tree without files and directories. -/
def empty : Tree := ⟨[], []⟩

/-- Everything that the list begins with, itself included and the empty list left out. -/
def ancestors (place : List Component) : List (List Component) :=
  (List.range place.length).map fun count => place.take (count + 1)

/-- Create a directory and all directories above it. -/
def createDirectory (tree : Tree) (path : SourcePath) : Tree :=
  { tree with
    directories := tree.directories ++
      (ancestors path.components).filter fun place => !tree.directories.contains place }

/-- Write a file, in place of any earlier one, and create the directories above it. -/
def writeFile (tree : Tree) (path : SourcePath) (text : String) : Tree :=
  let above :=
    match path.parent with
    | some parent => tree.createDirectory parent
    | none => tree
  { above with
    files := above.files.filter (fun file => file.1 != path.components) ++
      [(path.components, text)] }

/-- Remove a file, if it is there. -/
def removeFile (tree : Tree) (path : SourcePath) : Tree :=
  { tree with files := tree.files.filter fun file => file.1 != path.components }

/-- Remove a directory with everything below it. -/
def removeDirectory (tree : Tree) (path : SourcePath) : Tree where
  files := tree.files.filter fun file => !path.components.isPrefixOf file.1
  directories := tree.directories.filter fun place => !path.components.isPrefixOf place

/-- The text of a file. -/
def text? (tree : Tree) (path : SourcePath) : Option String :=
  (tree.files.find? fun file => file.1 == path.components).map (·.2)

/-- Whether a directory is registered under the path. -/
def isDirectory (tree : Tree) (path : SourcePath) : Bool :=
  tree.directories.contains path.components

/-- The name of the place directly inside the directory, if it is one. -/
def childName (directory place : List Component) : Option String :=
  match place.getLast? with
  | some (.name text) => if place.dropLast = directory then some text else none
  | _ => none

/-- The names of everything directly inside a directory, sorted. -/
def entryNames (tree : Tree) (path : SourcePath) : List String :=
  let places := tree.files.map (·.1) ++ tree.directories
  Text.sortedDistinct (places.filterMap (childName path.components))

/-- The tree as a store. -/
def store (tree : Tree) : SourceStore where
  read path :=
    match tree.text? path with
    | some text => .found text
    | none => .absent
  isDirectory := tree.isDirectory
  entryNames := tree.entryNames
  nesting := (tree.directories.map List.length).foldl max 0

end Tree

end ScriptAnalysis
