import SceneTree.CommandLine.Arguments
import SceneTree.CommandLine.FileTree
import SceneTree.Compile

/-!
# Running the command

The command reads the input as UTF-8, with line breaks of every kind taken for newlines, compiles it, and only then
touches the file system: it makes the directory of the output, and once the document is written as a text, it puts that
into the output.
-/

namespace SceneTree.CommandLine

/-- Why the command fails. -/
inductive CommandFault where
  | noInput (path : Path)
  | notText
  | compile (fault : CompileFault)
  | noOutput
  | noLayout
  | file (fault : FileFault)
  deriving Repr

/-- The wording of a fault. -/
def CommandFault.message : CommandFault → String
  | .noInput path => "Input file not found: '" ++ path.toText ++ "'"
  | .notText => "The input is not UTF-8."
  | .compile (.markup (.scan fault)) => fault.message
  | .compile (.markup (.grammar fault)) => fault.message
  | .compile (.tree fault) => fault.message
  | .noOutput => "No output was named."
  | .noLayout => "No indentation was given."
  | .file (.refused reason) => reason
  | .file _ => "The output cannot be written."

/-- How the command ends: without having begun, because help was asked for or the arguments cannot be used; with a
fault; or with the document written, and reports of what was done. -/
inductive Ending where
  | helped
  | misused
  | failed (fault : CommandFault)
  | finished (notices : List Notice)

/-- A text with line breaks of every kind taken for newlines. -/
def withNewlines : List Char → List Char
  | '\r' :: '\n' :: rest => '\n' :: withNewlines rest
  | '\r' :: rest => '\n' :: withNewlines rest
  | c :: rest => c :: withNewlines rest
  | [] => []

/-- The text of an input. -/
def inputText? (content : ByteArray) : Option String :=
  (String.fromUTF8? content).map fun text => String.ofList (withNewlines text.toList)

/-- The reports that are shown: the details only when they are asked for. -/
def shownNotices (verbose : Bool) (notices : List Notice) : List Notice :=
  notices.filter fun notice => verbose || !notice.isDetail

variable {m : Type → Type} [Monad m] [Files m]

/-- The text of the input at a path. -/
def readInput (path : Path) : m (Except CommandFault String) := do
  match ← Files.isFile path with
  | .error fault => return .error (.file fault)
  | .ok false => return .error (.noInput path)
  | .ok true =>
    match ← Files.readBytes path with
    | .error fault => return .error (.file fault)
    | .ok content =>
      match inputText? content with
      | none => return .error .notText
      | some text => return .ok text

/-- Writes a document to an output in a layout. -/
def writeTo (output : Option String) (layout : Option JsonText.Layout) (document : Document) :
    m (Except CommandFault Path) := do
  let some output := output | return .error .noOutput
  let path := Path.ofText output
  match ← Files.ensureDirectory path.anchor path.parent.reversed with
  | .error fault => return .error (.file fault)
  | .ok () =>
    let some layout := layout | return .error .noLayout
    match document.written layout with
    | .error fault => return .error (.compile (.tree fault))
    | .ok text =>
      match ← Files.writeText path text with
      | .error fault => return .error (.file fault)
      | .ok () => return .ok path

/-- Compiles the input of some arguments and writes the output. -/
def runWith (arguments : Arguments) (supply : IdSupply) : m Ending := do
  match ← readInput (Path.ofText arguments.input) with
  | .error fault => return .failed fault
  | .ok text =>
    let c := compileText text supply
    match c.outcome with
    | .error fault => return .failed (.compile fault)
    | .ok document =>
      match ← writeTo arguments.output arguments.layout document with
      | .error fault => return .failed fault
      | .ok path =>
        let notices := c.notices ++ [.wrote document.head.name path.toText]
        return .finished (shownNotices arguments.verbose notices)

/-- Runs the command. -/
def run (arguments : List String) (supply : IdSupply) : m Ending :=
  match request arguments with
  | .help => return .helped
  | .misuse => return .misused
  | .run arguments => runWith arguments supply

end SceneTree.CommandLine
