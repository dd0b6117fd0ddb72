import SceneTree.CommandLine.Path

/-!
# Files and directories

What the command needs of a file system, and how it makes the directory that a file is to be written into.
-/

namespace SceneTree.CommandLine

/-- Why something cannot be done with a path. -/
inductive FileFault where
  /-- Something on the way is not there. -/
  | notFound
  /-- Something on the way is not a directory. -/
  | notDirectory
  /-- What was to be made is there already. -/
  | alreadyThere
  /-- What was to be written is a directory. -/
  | isDirectory
  /-- No file can have such a name. -/
  | badName
  /-- A name on the way, or the whole path, is too long. -/
  | tooLong
  /-- The file system refused for a reason of its own. -/
  | refused (reason : String)
  deriving DecidableEq, Repr

/-- A file system, used by computations of type `m`. -/
class Files (m : Type → Type) where
  /-- Whether a path leads to a file; a path that is too long is refused. -/
  isFile : Path → m (Except FileFault Bool)
  /-- Whether a path leads to a directory. -/
  isDirectory : Path → m Bool
  /-- The content of a file. -/
  readBytes : Path → m (Except FileFault ByteArray)
  /-- Makes a directory inside one that is there. -/
  makeDirectory : Path → m (Except FileFault Unit)
  /-- Gives a file a content. -/
  writeText : Path → String → m (Except FileFault Unit)

namespace Files

variable {m : Type → Type} [Monad m] [Files m]

/-- A directory that was to be made and is there already is as good as made. -/
def orThere (path : Path) (outcome : Except FileFault Unit) : m (Except FileFault Unit) := do
  match outcome with
  | .ok () => return .ok ()
  | .error fault => return if ← isDirectory path then .ok () else .error fault

/-- Makes a directory and those above it that are missing. The parts of the path come last first. -/
def ensureDirectory (anchor : Anchor) (reversed : List String) : m (Except FileFault Unit) := do
  let path : Path := ⟨anchor, reversed⟩
  match ← makeDirectory path with
  | .error .notFound =>
    match reversed with
    | [] => return .error .notFound
    | _ :: above =>
      match ← ensureDirectory anchor above with
      | .error fault => return .error fault
      | .ok () =>
        match ← makeDirectory path with
        | .error .notFound => return .error .notFound
        | outcome => orThere path outcome
  | outcome => orThere path outcome

end Files

end SceneTree.CommandLine
