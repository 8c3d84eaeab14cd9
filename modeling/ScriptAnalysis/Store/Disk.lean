import ScriptAnalysis.Store
import ScriptAnalysis.Text.Distinct
import ScriptAnalysis.Text.Offsets

/-!
# Stores on disk

A `Disk` is a picture of a file system: the bytes of its files, its directories, and the
directory in which a process stands. Paths are followed step by step as an operating
system does, so that `..` leaves the directory that was really reached, and every
way in which a file can fail to be read has its own cause.
-/

namespace ScriptAnalysis

/-- Why a path leads to no text. -/
inductive DiskError where
  | notFound
  | notDirectory
  | isDirectory
  | nameTooLong
  | nulInName
  | notText
  deriving DecidableEq, Repr

namespace DiskError

/-- The wording of each cause. -/
def message : DiskError → String
  | .notFound => "No such file or directory (os error 2)"
  | .notDirectory => "Not a directory (os error 20)"
  | .isDirectory => "Is a directory (os error 21)"
  | .nameTooLong => "File name too long (os error 36)"
  | .nulInName => "file name contained an unexpected NUL byte"
  | .notText => "stream did not contain valid UTF-8"

/-- Only a missing file counts as absent without further notice. -/
def outcome : DiskError → ReadOutcome
  | .notFound => .absent
  | error => .unreadable error.message

end DiskError

/-- A picture of a file system. Every place is given by the names on the way to it. -/
structure Disk where
  files : List (List String × ByteArray)
  directories : List (List String)
  workingDirectory : List String

namespace Disk

/-- A disk with nothing but the directory in which the process stands. -/
def empty (workingDirectory : List String) : Disk :=
  ⟨[], [], workingDirectory⟩

/-- Take the components of a path one by one from a directory, and create each directory
that is named. `..` leaves the directory that was really reached. -/
def descend (disk : Disk) (place : List String) : List Component → Disk × List String
  | [] => (disk, place)
  | .name text :: rest =>
      let next := place ++ [text]
      descend { disk with directories := disk.directories ++ [next] } next rest
  | .parent :: rest => descend disk place.dropLast rest
  | _ :: rest => descend disk place rest

/-- Create a directory and all directories on the way to it. -/
def createDirectory (disk : Disk) (path : SourcePath) : Disk :=
  (disk.descend disk.workingDirectory path.components).1

/-- Write a file, in place of any earlier one, and create the directories on the way to
it. -/
def writeFile (disk : Disk) (path : SourcePath) (content : ByteArray) : Disk :=
  let (above, directory) := disk.descend disk.workingDirectory path.components.dropLast
  match path.fileName with
  | some name =>
      let place := directory ++ [name]
      { above with
        files := above.files.filter (fun file => file.1 != place) ++ [(place, content)] }
  | none => above

/-- The bytes of a file. -/
def content? (disk : Disk) (place : List String) : Option ByteArray :=
  (disk.files.find? fun file => file.1 == place).map (·.2)

/-- Everything that was put on the disk. -/
def places (disk : Disk) : List (List String) :=
  disk.workingDirectory :: disk.files.map (·.1) ++ disk.directories

/-- Whether a place is a directory: one that was created, or one on the way to another
place. -/
def isDirectoryAt (disk : Disk) (place : List String) : Bool :=
  place.isEmpty || disk.workingDirectory == place || disk.directories.contains place ||
    disk.places.any fun other => place.isPrefixOf other && place.length < other.length

/-- The greatest number of bytes in a name. -/
def longestName : Nat := 255

/-- The greatest number of bytes in a path. -/
def longestPath : Nat := 4095

/-- One step from a directory. -/
def enter (disk : Disk) (place : List String) (segment : List Char) :
    Except DiskError (List String) :=
  if !disk.isDirectoryAt place then .error .notDirectory
  else if segment.isEmpty || segment == ['.'] then .ok place
  else if segment == ['.', '.'] then .ok place.dropLast
  else if longestName < Text.byteLength segment then .error .nameTooLong
  else
    let next := place ++ [String.ofList segment]
    if disk.isDirectoryAt next || (disk.content? next).isSome then .ok next
    else .error .notFound

/-- Go through the segments of a path. -/
def follow (disk : Disk) : List String → List (List Char) → Except DiskError (List String)
  | place, [] => .ok place
  | place, segment :: rest =>
      match disk.enter place segment with
      | .ok next => disk.follow next rest
      | .error error => .error error

/-- The place to which a path leads. -/
def resolve (disk : Disk) (path : SourcePath) : Except DiskError (List String) :=
  let chars := path.text.toList
  if chars.contains '\x00' then .error .nulInName
  else if chars.isEmpty then .error .notFound
  else if longestPath < Text.byteLength chars then .error .nameTooLong
  else
    let start := if path.isAbsolute then [] else disk.workingDirectory
    disk.follow start (SourcePath.segments chars)

/-- Read the text of a file. -/
def read (disk : Disk) (path : SourcePath) : Except DiskError String :=
  match disk.resolve path with
  | .error error => .error error
  | .ok place =>
      match disk.content? place with
      | none => .error .isDirectory
      | some content =>
          match String.fromUTF8? content with
          | some text => .ok text
          | none => .error .notText

/-- Whether a path leads to a directory. -/
def isDirectory (disk : Disk) (path : SourcePath) : Bool :=
  match disk.resolve path with
  | .ok place => disk.isDirectoryAt place
  | .error _ => false

/-- The name of what the directory holds on the way to a place. -/
def childName (directory place : List String) : Option String :=
  if directory.isPrefixOf place then place[directory.length]? else none

/-- The names of everything directly inside a directory, sorted. -/
def entryNames (disk : Disk) (path : SourcePath) : List String :=
  match disk.resolve path with
  | .ok place =>
      if disk.isDirectoryAt place then
        Text.sortedDistinct (disk.places.filterMap (childName place))
      else []
  | .error _ => []

/-- The disk as a store. A relative path may begin with `..`, and an absolute one begins
with the root. -/
def store (disk : Disk) : SourceStore where
  read path :=
    match disk.read path with
    | .ok text => .found text
    | .error error => error.outcome
  isDirectory := disk.isDirectory
  entryNames := disk.entryNames
  nesting := (disk.places.map List.length).foldl max 0 + 2

end Disk

end ScriptAnalysis
