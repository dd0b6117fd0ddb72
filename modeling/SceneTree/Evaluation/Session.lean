import SceneTree.Compile
import SceneTree.Node.Forest
import SceneTree.Roster.Access

/-!
# Sessions

A session works on a forest: it evaluates trees of it into one document, in scopes made up for the purpose, and
compiles trees of it into documents of their own. It has a pool of ids, and a second one for those who do not bring
their own; new ids in both come from one source.
-/

namespace SceneTree

/-- A step of a path through the scripts of a document. -/
inductive PathStep where
  | index (i : Int)
  | field (name : String)
  deriving Repr

/-- Where a path through the scripts of a document begins. -/
inductive PathStart where
  | object (i : Int)
  | function (i : Int)
  deriving Repr

/-- A path through the scripts of a document. -/
structure ScriptPath where
  start : PathStart
  steps : List PathStep
  deriving Repr

/-- A scope in terms of the document's contents. -/
structure ScopeSpec where
  root : Bool
  project : Bool
  sceneId : Value
  object : Option Int
  function : Option Int
  statements : Option ScriptPath
  params : Option ScriptPath

namespace Document

/-- What a path has come to. -/
inductive PathPoint where
  | place (index : Nat)
  | item (item : Item)

/-- The place that collects the scripts of an object or the content of a function. -/
def startOf (doc : Document) : PathStart → Except Fault Nat
  | .object i => do return (← Access.get doc.objectEntries i).blocks
  | .function i => do return (← Access.get doc.functionEntries i).content

/-- One step on a path. -/
def follow (doc : Document) (point : PathPoint) (step : PathStep) : Except Fault PathPoint :=
  match point, step with
  | .place place, .index i => do
    let items := ((doc.parts.get? place).map Roster.values).getD []
    match ← Access.get items i with
    | .block inner => .ok (.place inner)
    | item => .ok (.item item)
  | .item (.script _ params _), .field "params" => .ok (.place params)
  | .item (.script _ _ statements), .field "statements" => .ok (.place statements)
  | .item (.value (.map entries)), .index i =>
    match Entries.get? entries (.int i) with
    | some v => .ok (.item (.value v))
    | none => .error .noKey
  | .item (.value v), .index i => do return .item (.value (← Access.get (← v.items) i))
  | _, .index _ => .error .wrongType
  | _, .field _ => .error .noField

/-- What a path leads to, as a binding: a null value is none. -/
def collectorAt (doc : Document) (path : ScriptPath) : Except Fault (Option Collector) := do
  let start ← doc.startOf path.start
  match ← path.steps.foldlM doc.follow (.place start) with
  | .place index => .ok (some (.place index))
  | .item (.value v) => .ok (if v.isNull then none else some .foreign)
  | .item _ => .ok (some .foreign)

/-- The scope that a description makes up. -/
def scopeOf (doc : Document) (spec : ScopeSpec) : Except Fault NodeScope := do
  let object ← spec.object.mapM fun i => Access.get doc.objects.values i
  let function ← spec.function.mapM fun i => Access.get doc.functions.values i
  let statements ← spec.statements.mapM doc.collectorAt
  let params ← spec.params.mapM doc.collectorAt
  let scope : NodeScope := Scope.empty.bind .root (if spec.root then some () else none)
  let scope := scope.bind .project (if spec.project then some () else none)
  let scope := scope.bind .sceneId (if spec.sceneId.isNull then none else some spec.sceneId)
  let scope := scope.bind .object object
  let scope := scope.bind .function function
  let scope := scope.bind .statements statements.join
  .ok (scope.bind .params params.join)

end Document

/-- A session: its forest, its evaluation with the pool of its own ids, and the pool for everyone else. -/
structure Session where
  forest : Forest
  evaluation : Evaluation
  sharedPool : IdPool

namespace Session

/-- The session that has done nothing, with a source of new ids. -/
def start (source : Entropy) : Session := ⟨.empty, .start ⟨.empty, source⟩, .empty⟩

/-- Works on the forest. -/
def onForest {α : Type} (x : Attempt Forest α) : Attempt Session α := fun s =>
  let (outcome, forest) := x s.forest
  (outcome, { s with forest := forest })

/-- Works on the evaluation. -/
def onEvaluation {α : Type} (x : Evaluating α) : Attempt Session α := fun s =>
  let (outcome, evaluation) := x s.evaluation
  (outcome, { s with evaluation := evaluation })

/-- The tree below a child. -/
def treeOf (child : Child) : Attempt Session (Tree Nat) := do
  match (← Attempt.state).forest.tree? child with
  | some tree => pure tree
  | none => Attempt.fail .badIndex

/-- Evaluates a tree of the forest. -/
def evaluate (child : Child) (spec : ScopeSpec) : Attempt Session Unit := do
  let tree ← treeOf child
  let scope ← (← Attempt.state).evaluation.document.scopeOf spec
  onEvaluation (Evaluating.evaluate tree scope)

/-- Begins again with an empty document and no handles. The ids in use stay in use. -/
def reset : Attempt Session Unit := Attempt.update fun s => { s with evaluation := .start s.evaluation.supply }

/-- Begins again also with the ids. -/
def renewIds : Attempt Session Unit :=
  Attempt.update fun s => { s with evaluation := .start ⟨.empty, s.evaluation.supply.source⟩ }

/-- Compiles a tree of the forest with ids from one of the two pools, and writes its document. -/
def compile (child : Child) (shared : Bool) (layout : JsonText.Layout) : Attempt Session String := do
  let tree ← treeOf child
  fun s =>
    let own := s.evaluation.supply
    let (outcome, e) := compileTree tree (if shared then { own with pool := s.sharedPool } else own)
    let kept := if shared then { own with source := e.supply.source } else e.supply
    (outcome.bind (·.written layout),
      { s with
        evaluation := { s.evaluation with supply := kept }
        sharedPool := if shared then e.supply.pool else s.sharedPool })

/-- The script of the object at a position. -/
def script (i : Int) : Attempt Session String :=
  onEvaluation <| Evaluating.onDocument <| Document.reading fun doc => do
    let object ← Access.get doc.objectEntries i
    doc.script object

/-- The content of the function at a position. -/
def content (i : Int) : Attempt Session String :=
  onEvaluation <| Evaluating.onDocument <| Document.reading fun doc => do
    let function ← Access.get doc.functionEntries i
    doc.content function

end Session

end SceneTree
