import SceneTree.CommandLine.Run

/-!
# The command

Compiles a tree written as markup into the JSON text of a project.
-/

open SceneTree SceneTree.CommandLine

namespace SceneTree.CommandLine

/-- How an error of the file system is reported. -/
def faultOf : IO.Error → FileFault
  | .noFileOrDirectory .. => .notFound
  | .alreadyExists .. => .alreadyThere
  | .inappropriateType .. => .isDirectory
  | .invalidArgument _ 36 _ => .tooLong
  | e => .refused (toString e)

/-- Tries something with the file system. -/
def attempt {α : Type} (action : IO α) : IO (Except FileFault α) := do
  try
    return .ok (← action)
  catch e => return .error (faultOf e)

/-- The file system of the machine. -/
instance : Files IO where
  isFile path := do
    match ← attempt (do return (← (← IO.FS.realPath path.toText).metadata).type == .file) with
    | .error .tooLong => return .error .tooLong
    | .error _ => return .ok false
    | .ok found => return .ok found
  isDirectory path := do
    try
      (← IO.FS.realPath path.toText).isDir
    catch _ => return false
  readBytes path := attempt (IO.FS.readBinFile path.toText)
  makeDirectory path := attempt (IO.FS.createDir path.toText)
  writeText path text := attempt (IO.FS.writeFile path.toText text)

/-- How the command is used. -/
def usage : String := "usage: scenetree [-h] [--indent INDENT] [--verbose] input output"

end SceneTree.CommandLine

/-- Runs the command with ids from the machine's source of random bytes. -/
def main (arguments : List String) : IO UInt32 := do
  let bytes ← IO.getRandomBytes 65536
  let supply : IdSupply := ⟨.empty, .counting bytes.toList⟩
  match ← (run arguments supply : IO Ending) with
  | .helped =>
    IO.println usage
    return 0
  | .misused =>
    IO.eprintln usage
    return 2
  | .failed fault =>
    IO.eprintln fault.message
    return 1
  | .finished notices =>
    for notice in notices do
      IO.eprintln notice.line
    return 0
