import SceneTree.Document.Basic
import SceneTree.Identifier.Pool
import SceneTree.Node.Build
import SceneTree.Scope

/-!
# The state of an evaluation

Evaluating a tree fills a document. Each node that is met gets a handle, the first time, and the handle keeps the id
that the node was given. An id belongs to one handle at a time. All of this lasts from one evaluation to the next.
-/

namespace SceneTree

/-- Where ids come from: the pool of those in use and the source of new ones. -/
structure IdSupply where
  pool : IdPool
  source : Entropy

/-- A place that collects parts of a script, or a value that collects nothing. -/
inductive Collector where
  | place (index : Nat)
  | foreign

/-- What is bound at the places of a scope: the document itself, the id of a scene, the cell of an object or a function,
and places that collect parts of scripts. -/
@[reducible] def Binding : Place → Type
  | .root | .project => Unit
  | .sceneId => Value
  | .object | .function => Nat
  | .statements | .params => Collector

/-- The scope of a node. -/
abbrev NodeScope := Scope Binding

/-- Reports of an evaluation as it goes on. -/
inductive Notice where
  | compiling (kind : String)
  | evaluating (kind : String) (handle : Handle)
  | compiled (name : Value) (nodes scenes objects : Nat)
  | wrote (name : Value) (path : String)
  deriving Repr

/-- The state of an evaluation. A node that was met has the position of its mark as its handle. -/
structure Evaluation where
  supply : IdSupply
  met : List Nat
  ids : List (Handle × Value)
  owners : List (Value × Handle)
  document : Document
  notices : List Notice

/-- A step of an evaluation. -/
abbrev Evaluating := Attempt Evaluation

namespace Evaluation

/-- An evaluation that has met no node, with a supply of ids. -/
def start (supply : IdSupply) : Evaluation := ⟨supply, [], [], [], .empty, []⟩

/-- The id that a handle keeps. -/
def idOf? (e : Evaluation) (handle : Handle) : Option Value := e.ids.lookup handle

/-- The handle that an id belongs to. -/
def ownerOf? (e : Evaluation) (id : Value) : Option Handle := (e.owners.find? fun (v, _) => v == id).map (·.2)

/-- Gives an id to a handle, which gives up the one it has unless it is the same. -/
def assign (e : Evaluation) (handle : Handle) (id : Value) : Evaluation :=
  let kept := match e.idOf? handle with
    | some old => if old == id then e.owners else e.owners.eraseP fun (v, _) => v == old
    | none => e.owners
  { e with
    ids := (handle, id) :: e.ids.eraseP fun (h, _) => h == handle
    owners := if kept.any fun (v, _) => v == id then
        kept.map fun (v, h) => if v == id then (v, handle) else (v, h)
      else kept ++ [(id, handle)] }

end Evaluation

namespace Evaluating

/-- Changes the document. -/
def updateDocument (f : Document → Document) : Evaluating Unit :=
  Attempt.update fun e => { e with document := f e.document }

/-- The handle of the node with a mark: the next one if the node was not met before. -/
def handleOf (mark : Nat) : Evaluating Handle := Attempt.step fun e =>
  match e.met.idxOf? mark with
  | some handle => (handle, e)
  | none => (e.met.length, { e with met := e.met ++ [mark] })

/-- Reports something. -/
def notify (notice : Notice) : Evaluating Unit :=
  Attempt.update fun e => { e with notices := e.notices ++ [notice] }

/-- An id that was not in use. -/
def freshId : Evaluating String := fun e =>
  let (outcome, pool, source) := e.supply.pool.next e.supply.source IdPool.defaultLength
  (outcome, { e with supply := ⟨pool, source⟩ })

/-- The id of a handle. One that was authored is taken unless it belongs to another handle; otherwise the handle keeps
the id it has, or gets a new one. -/
def instanceId (handle : Handle) (authored : Value) : Evaluating Value := do
  let e ← Attempt.state
  if authored.truthy then
    if !authored.isKey then Attempt.fail .wrongType
    else if (e.ownerOf? authored).any (· != handle) then Attempt.fail (.idTaken authored)
    else
      Attempt.update fun e =>
        { e.assign handle authored with supply := { e.supply with pool := e.supply.pool.reserve authored } }
      pure authored
  else
    match e.idOf? handle with
    | some id => pure id
    | none =>
      let id ← freshId
      Attempt.update fun e => e.assign handle (.str id)
      pure (.str id)

end Evaluating

end SceneTree
