import SceneTree.CommandLine.Files

/-!
# File trees

A file system in memory: the files and directories by their place, which is the list of names from the root down. The
root is always a directory. Paths that begin nowhere begin at the working directory.
-/

namespace SceneTree.CommandLine

/-- The names that lead from the root to a file or directory. -/
abbrev Location := List String

/-- Files with their contents, directories, and the working directory. -/
structure FileTree where
  files : List (Location × ByteArray)
  directories : List Location
  workingDirectory : Location

namespace FileTree

/-- Whether there is a directory at a place. -/
def hasDirectory (t : FileTree) (place : Location) : Bool := place.isEmpty || t.directories.contains place

/-- The content of the file at a place. -/
def file? (t : FileTree) (place : Location) : Option ByteArray := t.files.lookup place

/-- Whether there is a file at a place. -/
def hasFile (t : FileTree) (place : Location) : Bool := (t.file? place).isSome

/-- The greatest length of a name in bytes. -/
def longestName : Nat := 255

/-- The greatest length of a path in bytes. -/
def longestPath : Nat := 4095

/-- Goes on from a place by some names. All but the last must be there; only a directory can be gone on from. -/
def walk (t : FileTree) (place : Location) : List String → Except FileFault Location
  | [] => .ok place
  | name :: rest =>
    if !t.hasDirectory place then .error (if t.hasFile place then .notDirectory else .notFound)
    else if longestName < name.utf8ByteSize then .error .tooLong
    else t.walk (if name = ".." then place.dropLast else place ++ [name]) rest

/-- The place that a path leads to. What is at its end need not be there, but what it is in must be. -/
def locate (t : FileTree) (path : Path) : Except FileFault Location :=
  if path.reversed.any fun name => name.toList.contains '\x00' then .error .badName
  else if longestPath < path.toText.utf8ByteSize then .error .tooLong
  else t.walk (if path.anchor = .relative then t.workingDirectory else []) path.parts

/-- The tree with a content given to the file at a place. -/
def write (t : FileTree) (place : Location) (content : ByteArray) : FileTree :=
  { t with files := (place, content) :: t.files.filter fun (p, _) => p != place }

/-- The files below a directory, by the names that lead to them from there. -/
def filesBelow (t : FileTree) (place : Location) : List (Location × ByteArray) :=
  t.files.filterMap fun (p, content) =>
    if place.isPrefixOf p then some (p.drop place.length, content) else none

end FileTree

/-- Computations over a file tree use it as a file system. -/
instance : Files (StateM FileTree) where
  isFile path := fun t =>
    (match t.locate path with
      | .ok place => .ok (t.hasFile place)
      | .error .tooLong => .error .tooLong
      | .error _ => .ok false, t)
  isDirectory path := fun t =>
    (match t.locate path with
      | .ok place => t.hasDirectory place
      | .error _ => false, t)
  readBytes path := fun t =>
    (match t.locate path with
      | .ok place =>
        if t.hasDirectory place then .error .isDirectory
        else match t.file? place with
          | some content => .ok content
          | none => .error .notFound
      | .error fault => .error fault, t)
  makeDirectory path := fun t =>
    match t.locate path with
    | .ok place =>
      if t.hasDirectory place || t.hasFile place then (.error .alreadyThere, t)
      else (.ok (), { t with directories := t.directories ++ [place] })
    | .error fault => (.error fault, t)
  writeText path text := fun t =>
    match t.locate path with
    | .ok place =>
      if t.hasDirectory place then (.error .isDirectory, t) else (.ok (), t.write place text.toUTF8)
    | .error fault => (.error fault, t)

end SceneTree.CommandLine
