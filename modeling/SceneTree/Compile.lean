import SceneTree.Evaluation.Walk
import SceneTree.Markup.Grammar

/-!
# Compiling

A tree is compiled by evaluating it into an empty document. Exactly one project must have filled the document, every
selected picture must be there, and the document must have a text: it is written once for that, so that no reference is
left that finds nothing.
-/

namespace SceneTree

/-- The wording of a report. -/
def Notice.message : Notice → String
  | .compiling kind => "compiling " ++ kind ++ " tree"
  | .evaluating kind handle => "evaluating " ++ kind ++ " #" ++ toString handle
  | .compiled name nodes scenes objects =>
    "compiled project " ++ name.quoted ++ ": " ++ toString nodes ++ " node(s), " ++ toString scenes ++ " scene(s), " ++
      toString objects ++ " object(s)"
  | .wrote name path => "wrote project " ++ name.quoted ++ " to " ++ path

/-- Whether a report is one of those that show only when details are asked for. -/
def Notice.isDetail : Notice → Bool
  | .wrote .. => false
  | _ => true

/-- A report as a line of a log. -/
def Notice.line (notice : Notice) : String :=
  let level := if notice.isDetail then "DEBUG" else "INFO"
  let part := match notice with
    | .evaluating .. => "handlers"
    | _ => "compiler"
  level ++ " " ++ part ++ ": " ++ notice.message

/-- The scope of the root of a tree: the document alone. -/
def NodeScope.root : NodeScope := Scope.empty.bind .root (some ())

namespace Evaluating

/-- Does something with the document. -/
def onDocument {α : Type} (x : Attempt Document α) : Evaluating α := fun e =>
  let (outcome, doc) := x e.document
  (outcome, { e with document := doc })

/-- The text of the document. -/
def write (layout : JsonText.Layout) : Evaluating String := onDocument (Document.text layout)

/-- Compiles a tree in an evaluation that has just begun. -/
def compile (tree : Tree Nat) : Evaluating Unit := do
  notify (.compiling (match tree with
    | .node _ data _ => data.called
    | .literal v => v.typeName))
  evaluate tree NodeScope.root
  let doc := (← Attempt.state).document
  match doc.populatedBy with
  | [] => Attempt.fail .missingRoot
  | [_] => pure ()
  | _ => Attempt.fail .duplicateRoot
  Attempt.ofExcept doc.checkSelectedPictures
  let _ ← write .spaced
  let e ← Attempt.state
  notify (.compiled doc.head.name e.met.length doc.scenes.size doc.objects.size)

end Evaluating

/-- Why a text is not compiled. -/
inductive CompileFault where
  | markup (fault : Markup.MarkupFault)
  | tree (fault : Fault)
  deriving Repr

/-- What compiling a text comes to: a document or a fault, the supply of ids afterwards, and the reports. -/
structure Compilation where
  outcome : Except CompileFault Document
  supply : IdSupply
  notices : List Notice

/-- Compiles a tree, and has the document and the evaluation that filled it. -/
def compileTree (tree : Tree Nat) (supply : IdSupply) : Except Fault Document × Evaluation :=
  (do Evaluating.compile tree; return (← Attempt.state).document : Evaluating Document) (.start supply)

/-- Compiles a text. -/
def compileText (text : String) (supply : IdSupply) : Compilation :=
  match Markup.read text with
  | .error fault => ⟨.error (.markup fault), supply, []⟩
  | .ok tree =>
    let (outcome, e) := compileTree (tree.numbered 0).1 supply
    ⟨outcome.mapError .tree, e.supply, e.notices⟩

/-- The text of a document, written once. -/
def Document.written (doc : Document) (layout : JsonText.Layout) : Except Fault String := (Document.text layout doc).1

end SceneTree
