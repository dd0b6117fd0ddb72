import SceneTree.Proofs.Repetition.Behind

/-!
# Documents under a veil

Ids stand in many places of a document: in the entries of the nodes that hold them, and wherever an entry or a script
means another one. A veil puts something else in all of these places and leaves everything else as it is. What a node
contributes to a document under a veil is what it contributes to the document, under the veil; only that a local
variable, whose id is made from two, has there what the veil puts in the place of its own.
-/

namespace SceneTree

/-- What is put in the place of an id, and in that of the id of a local variable of a function with an id. -/
structure Veil where
  onId : Value → Value
  onLocalId : (function id : Value) → Value

/-- Numbered things, each of them changed. -/
def Cells.map {α : Type} (f : α → α) (cells : Cells α) : Cells α := ⟨cells.contents.map f⟩

namespace Veil

variable (v : Veil)

/-- A scene under the veil. -/
def onScene (e : SceneEntry) : SceneEntry := { e with id := v.onId e.id }

/-- A picture under the veil. -/
def onPicture (e : PictureEntry) : PictureEntry := { e with id := v.onId e.id }

/-- A sound under the veil. -/
def onSound (e : SoundEntry) : SoundEntry := { e with id := v.onId e.id }

/-- A variable under the veil, with the object that it belongs to. -/
def onVariable (e : VariableEntry) : VariableEntry := { e with id := v.onId e.id, object := v.onId e.object }

/-- A message under the veil. -/
def onMessage (e : MessageEntry) : MessageEntry := { e with id := v.onId e.id }

/-- An object under the veil, with its scene, the picture that it shows, its pictures and its sounds. -/
def onObject (e : ObjectEntry) : ObjectEntry :=
  { e with
    id := v.onId e.id
    scene := v.onId e.scene
    selectedPicture := v.onId e.selectedPicture
    pictures := e.pictures.map v.onPicture
    sounds := e.sounds.map v.onSound }

/-- A local variable of a function with an id, under the veil. -/
def onLocal (function : Value) (e : LocalVariableEntry) : LocalVariableEntry :=
  { e with id := v.onLocalId function e.id }

/-- A function under the veil, with its local variables. -/
def onFunction (e : FunctionEntry) : FunctionEntry :=
  { e with
    id := v.onId e.id
    locals := e.locals.map (v.onLocal e.id) }

/-- A part of a script under the veil: scripts have ids, and references mean the same reference as before. -/
def onItem : Item → Item
  | .script head params statements => .script { head with id := v.onId head.id } params statements
  | item => item

/-- What is bound at a place, under the veil: the id of a scene. -/
def onBinding : (p : Place) → Binding p → Binding p
  | .sceneId, id => v.onId id
  | .root, x | .project, x => x
  | .object, index => index
  | .function, index => index
  | .statements, c | .params, c => c

/-- A scope under the veil. -/
def onScope (scope : NodeScope) : NodeScope := scope.map v.onBinding

end Veil

namespace Document

/-- A document that says nothing of its interface. -/
def bare (doc : Document) : Document := { doc with head := { doc.head with interface := [] } }

/-- A document under a veil, without what it says of its interface. -/
def veiled (v : Veil) (doc : Document) : Document :=
  { doc.bare with
    scenes := doc.scenes.map v.onScene
    globals := doc.globals.map v.onVariable
    messages := doc.messages.map v.onMessage
    objectCells := doc.objectCells.map v.onObject
    functionCells := doc.functionCells.map v.onFunction
    parts := doc.parts.map (Roster.map v.onItem) }

end Document

namespace Cells

variable {α : Type} (f : α → α) (cells : Cells α)

@[simp] theorem size_map : (cells.map f).size = cells.size := by simp [size, map]

@[simp] theorem get?_map (i : Nat) : (cells.map f).get? i = (cells.get? i).map f := by simp [get?, map]

theorem map_empty : (Cells.empty : Cells α).map f = .empty := by simp [map, empty]

theorem add_map (a : α) : (cells.map f).add (f a) = (cells.add a).map f := by simp [add, map]

theorem modify_map (i : Nat) {g g' : α → α} (h : ∀ a, cells.get? i = some a → g' (f a) = f (g a)) :
    (cells.map f).modify i g' = (cells.modify i g).map f := by
  unfold modify map
  congr 1
  refine Array.ext (by simp) fun j hj hj' => ?_
  simp only [Array.getElem_modify, Array.getElem_map]
  split
  · next hij =>
    subst hij
    refine h _ ?_
    unfold get?
    rw [Array.getElem?_eq_getElem]
  · rfl

end Cells

namespace Veil

variable (v : Veil)

theorem onScope_bind (scope : NodeScope) (place : Place) (binding : Option (Binding place)) :
    v.onScope (scope.bind place binding) = (v.onScope scope).bind place (binding.map (v.onBinding place)) :=
  Scope.map_bind _ _ _ _

theorem onBinding_of_ne {place : Place} (h : place ≠ .sceneId) : v.onBinding place = id := by
  funext x
  cases place <;> first | rfl | exact absurd rfl h

theorem onScope_root : v.onScope .root = .root := by
  unfold NodeScope.root
  rw [onScope_bind]
  rfl

/-- Nothing but the id of a scene is under the veil in a scope. -/
theorem get_onScope {scope : NodeScope} {place : Place} (h : place ≠ .sceneId) :
    (v.onScope scope).get place = scope.get place := by
  have hget : (v.onScope scope).get place = (scope.get place).map (v.onBinding place) := rfl
  rw [hget, onBinding_of_ne v h, Option.map_id_fun, id]

/-- The id of the scene is under the veil in a scope. -/
theorem sceneIn_onScope (hnull : v.onId .null = .null) (scope : NodeScope) :
    (v.onScope scope).sceneIn = v.onId scope.sceneIn := by
  unfold NodeScope.sceneIn
  have hget : (v.onScope scope).get .sceneId = (scope.get .sceneId).map v.onId := rfl
  rw [hget]
  cases scope.get .sceneId with
  | none => exact hnull.symm
  | some _ => rfl

theorem onScope_insideObject (scope : NodeScope) (index blocks : Nat) :
    v.onScope (scope.insideObject index blocks) = (v.onScope scope).insideObject index blocks := by
  unfold NodeScope.insideObject
  simp only [onScope_bind]
  rfl

theorem onScope_insideFunction (scope : NodeScope) (index content : Nat) :
    v.onScope (scope.insideFunction index content) = (v.onScope scope).insideFunction index content := by
  unfold NodeScope.insideFunction
  simp only [onScope_bind]
  rfl

theorem onScope_insideStatement (scope : NodeScope) (block : Nat) :
    v.onScope (scope.insideStatement block) = (v.onScope scope).insideStatement block := by
  unfold NodeScope.insideStatement
  rw [onScope_bind]
  rfl

theorem onObject_addPicture (object : ObjectEntry) (n : Handle) (entry : PictureEntry) (selected : Bool) :
    (v.onObject object).addPicture n (v.onPicture entry) selected =
      v.onObject (object.addPicture n entry selected) := by
  unfold ObjectEntry.addPicture Veil.onObject
  simp only [Roster.insert_map]
  cases selected <;> rfl

theorem onObject_addSound (object : ObjectEntry) (n : Handle) (entry : SoundEntry) :
    (v.onObject object).addSound n (v.onSound entry) = v.onObject (object.addSound n entry) := by
  unfold ObjectEntry.addSound Veil.onObject
  simp only [Roster.insert_map]

theorem onFunction_addLocal (function : FunctionEntry) (n : Handle) (entry : LocalVariableEntry) :
    (v.onFunction function).addLocal n (v.onLocal function.id entry) = v.onFunction (function.addLocal n entry) := by
  unfold FunctionEntry.addLocal Veil.onFunction
  simp only [Roster.insert_map]

theorem onScope_insideScript (scope : NodeScope) (params statements : Nat) :
    v.onScope (scope.insideScript params statements) = (v.onScope scope).insideScript params statements := by
  unfold NodeScope.insideScript
  simp only [onScope_bind]
  rfl

end Veil

namespace Document

variable (v : Veil) (doc : Document) (n : Handle)

theorem veiled_empty : Document.empty.veiled v = .empty := by
  unfold veiled Document.empty
  simp only [Cells.map_empty]
  rfl

theorem veiled_addPlace : (doc.veiled v).addPlace = doc.addPlace.veiled v := by
  have h := doc.parts.add_map (Roster.map v.onItem) .empty
  unfold addPlace veiled
  simp only
  rw [← h]
  rfl

theorem veiled_putItem (place : Nat) (item : Item) :
    (doc.veiled v).putItem place n (v.onItem item) = (doc.putItem place n item).veiled v := by
  unfold putItem veiled
  simp only
  congr 1
  exact doc.parts.modify_map _ place fun r _ => Roster.insert_map v.onItem r n item

theorem veiled_addScene (entry : SceneEntry) :
    (doc.veiled v).addScene n (v.onScene entry) = (doc.addScene n entry).veiled v := by
  unfold addScene veiled
  simp only
  congr 1
  exact Roster.insert_map v.onScene doc.scenes n entry

theorem veiled_addVariable (entry : VariableEntry) :
    (doc.veiled v).addVariable n (v.onVariable entry) = (doc.addVariable n entry).veiled v := by
  unfold addVariable veiled
  simp only
  congr 1
  exact Roster.insert_map v.onVariable doc.globals n entry

theorem veiled_addMessage (entry : MessageEntry) :
    (doc.veiled v).addMessage n (v.onMessage entry) = (doc.addMessage n entry).veiled v := by
  unfold addMessage veiled
  simp only
  congr 1
  exact Roster.insert_map v.onMessage doc.messages n entry

theorem veiled_addObject (entry : ObjectEntry) (selected : Bool) :
    ((doc.veiled v).addObject n (v.onObject entry) selected).bare = (doc.addObject n entry selected).veiled v := by
  have hcells := doc.objectCells.add_map v.onObject entry
  unfold addObject veiled
  simp only [Cells.size_map]
  rw [hcells]
  cases selected <;> rfl

theorem veiled_changeObject (index : Nat) {g g' : ObjectEntry → ObjectEntry}
    (h : ∀ object, g' (v.onObject object) = v.onObject (g object)) :
    (doc.veiled v).changeObject index g' = (doc.changeObject index g).veiled v := by
  unfold changeObject veiled
  simp only
  congr 1
  exact doc.objectCells.modify_map _ index fun object _ => h object

theorem veiled_addFunction (entry : FunctionEntry) :
    (doc.veiled v).addFunction n (v.onFunction entry) = (doc.addFunction n entry).veiled v := by
  have hcells := doc.functionCells.add_map v.onFunction entry
  unfold addFunction veiled
  simp only [Cells.size_map]
  rw [hcells]
  rfl

theorem veiled_changeFunction (index : Nat) {g g' : FunctionEntry → FunctionEntry}
    (h : ∀ function, doc.functionCells.get? index = some function →
      g' (v.onFunction function) = v.onFunction (g function)) :
    (doc.veiled v).changeFunction index g' = (doc.changeFunction index g).veiled v := by
  unfold changeFunction veiled
  simp only
  congr 1
  exact doc.functionCells.modify_map _ index h

theorem veiled_ownerIn (hnull : v.onId .null = .null) (scope : NodeScope) :
    (doc.veiled v).ownerIn (v.onScope scope) = v.onId (doc.ownerIn scope) := by
  unfold ownerIn
  rw [Veil.get_onScope v (by decide)]
  cases scope.get .object with
  | none => exact hnull.symm
  | some index =>
    have hget : (doc.veiled v).objectCells.get? index = (doc.objectCells.get? index).map v.onObject :=
      Cells.get?_map _ _ _
    simp only [hget]
    cases doc.objectCells.get? index with
    | none => exact hnull.symm
    | some object => rfl

end Document

namespace Evaluating

variable (v : Veil) (doc : Document) (scope : NodeScope)

/-- What a node contributes if the id of a local variable is not made from that of its function. -/
def contributePlainly (node : Node) (literals : List Value) (scope : NodeScope) (n : Handle) (id : Value) :
    Attempt Document (Option NodeScope) := fun doc =>
  if node.kind = .localVariable then
    match scope.get .function with
    | some index => (.ok none, doc.changeFunction index (·.addLocal n ⟨id, node.get .name, node.get .value⟩))
    | none => (.error .noField, doc)
  else contribute node literals scope n id doc

theorem contributePlainly_of_ne {node : Node} (hk : node.kind ≠ .localVariable) (literals : List Value)
    (scope : NodeScope) (n : Handle) (id : Value) :
    contributePlainly node literals scope n id = contribute node literals scope n id := by
  funext doc
  exact if_neg hk

/-- One attempt leaves what another one leaves, under a veil. -/
def Leaves (v : Veil) (x y : Except Fault (Option NodeScope) × Document) : Prop :=
  x.1 = y.1.map (Option.map v.onScope) ∧ x.2.bare = y.2.veiled v

theorem Leaves.ok {inner inner' : Option NodeScope} {doc doc' : Document} (hinner : inner' = inner.map v.onScope)
    (hdoc : doc'.bare = doc.veiled v) : Leaves v (.ok inner', doc') (.ok inner, doc) :=
  ⟨congrArg Except.ok hinner, hdoc⟩

theorem veiled_deliver (collector : Option Collector) (n : Handle) (item : Item) (inner : Option NodeScope) :
    Leaves v (deliver collector n (v.onItem item) (inner.map v.onScope) (doc.veiled v))
      (deliver collector n item inner doc) := by
  match collector with
  | none | some .foreign => exact ⟨rfl, rfl⟩
  | some (.place index) => exact ⟨rfl, congrArg Document.bare (Document.veiled_putItem v doc n index item)⟩

/-- Where a name is looked for does not depend on what is under a veil. -/
theorem veiled_targetIn (node : Node) : targetIn node (v.onScope scope) = targetIn node scope := by
  unfold targetIn
  rw [Veil.get_onScope v (by decide)]

/-- What a local variable contributes to a document under a veil, if it has there the id that the veil gives it. -/
theorem veiled_contribute_localVariable {node : Node} (literals : List Value) (n : Handle) {id : Value}
    (hk : node.kind = .localVariable) (hlocal : ∀ f, v.onLocalId f (node.localEntry id f).id = v.onId id) :
    Leaves v (contributePlainly node literals (v.onScope scope) n (v.onId id) (doc.veiled v))
      (contribute node literals scope n id doc) := by
  have hfunction : (v.onScope scope).get .function = scope.get .function := v.get_onScope (by decide)
  unfold contributePlainly contribute
  simp only [hk, if_true, hfunction]
  cases hf : scope.get .function with
  | none => exact ⟨rfl, rfl⟩
  | some index =>
    refine ⟨rfl, congrArg Document.bare (Document.veiled_changeFunction v doc index fun function hc => ?_)⟩
    have hid : doc.functionIn scope = function.id := by
      unfold Document.functionIn
      simp only [hf, hc]
      rfl
    rw [← Veil.onFunction_addLocal, hid]
    unfold Veil.onLocal
    rw [hlocal]
    rfl

/-- What a node contributes to a document under a veil is what it contributes to the document, under the veil. -/
theorem veiled_contribute {node : Node} (literals : List Value) (n : Handle) {id : Value}
    (hnull : v.onId .null = .null)
    (hlocal : node.kind = .localVariable → ∀ f, v.onLocalId f (node.localEntry id f).id = v.onId id) :
    Leaves v (contributePlainly node literals (v.onScope scope) n (v.onId id) (doc.veiled v))
      (contribute node literals scope n id doc) := by
  by_cases hk : node.kind = .localVariable
  · exact veiled_contribute_localVariable v doc scope literals n hk (hlocal hk)
  have hsize : (doc.veiled v).parts.size = doc.parts.size := Cells.size_map _ _
  have hobjects : (doc.veiled v).objectCells.size = doc.objectCells.size := Cells.size_map _ _
  have hfunctions : (doc.veiled v).functionCells.size = doc.functionCells.size := Cells.size_map _ _
  have hscene := v.sceneIn_onScope hnull scope
  have hget : ∀ {place}, place ≠ .sceneId → (v.onScope scope).get place = scope.get place := Veil.get_onScope v
  have hobject := hget (by decide : Place.object ≠ .sceneId)
  have hstatements := hget (by decide : Place.statements ≠ .sceneId)
  have hparams := hget (by decide : Place.params ≠ .sceneId)
  rw [contributePlainly_of_ne hk]
  unfold contribute
  match hk' : node.kind with
  | .localVariable => exact absurd hk' hk
  | .fragment => exact ⟨rfl, rfl⟩
  | .project =>
    exact .ok v (congrArg some (v.onScope_bind scope .project (some ())).symm) rfl
  | .scene =>
    exact .ok v (congrArg some (v.onScope_bind scope .sceneId (some id)).symm)
      (congrArg Document.bare (Document.veiled_addScene v doc n (node.sceneEntry id)))
  | .object | .sprite | .textBox =>
    have hentry : node.objectEntry (v.onId id) (v.onId scope.sceneIn) doc.parts.size =
        v.onObject (node.objectEntry id scope.sceneIn doc.parts.size) := by
      unfold Node.objectEntry Node.objectHead Veil.onObject
      simp only [hnull]
      rfl
    simp only [hsize, hobjects, hscene, Document.veiled_addPlace, hentry]
    exact .ok v (congrArg some (v.onScope_insideObject scope _ _).symm) (Document.veiled_addObject v doc.addPlace n _ _)
  | .picture =>
    simp only [hobject]
    cases scope.get .object with
    | none => exact ⟨rfl, rfl⟩
    | some index =>
      refine ⟨rfl, congrArg Document.bare (Document.veiled_changeObject v doc index fun object => ?_)⟩
      exact v.onObject_addPicture object n (node.pictureEntry id) _
  | .sound =>
    simp only [hobject]
    cases scope.get .object with
    | none => exact ⟨rfl, rfl⟩
    | some index =>
      refine ⟨rfl, congrArg Document.bare (Document.veiled_changeObject v doc index fun object => ?_)⟩
      exact v.onObject_addSound object n (node.soundEntry id)
  | .variable =>
    simp only [Document.veiled_ownerIn v doc hnull]
    exact ⟨rfl, congrArg Document.bare (Document.veiled_addVariable v doc n (node.variableEntry id _))⟩
  | .message => exact ⟨rfl, congrArg Document.bare (Document.veiled_addMessage v doc n (node.messageEntry id))⟩
  | .table => exact ⟨rfl, rfl⟩
  | .function =>
    simp only [hsize, hfunctions, Document.veiled_addPlace]
    exact .ok v (congrArg some (v.onScope_insideFunction scope _ _).symm)
      (congrArg Document.bare (Document.veiled_addFunction v doc.addPlace n (node.functionEntry id _)))
  | .statement =>
    simp only [hstatements, hsize, Document.veiled_addPlace, ← Veil.onScope_insideStatement]
    exact veiled_deliver v doc.addPlace (scope.get .statements) n (.block doc.parts.size)
      (some (scope.insideStatement doc.parts.size))
  | .script =>
    cases (node.get .extensions).items with
    | error fault => exact ⟨rfl, rfl⟩
    | ok _ =>
      simp only [hparams, hsize, Document.veiled_addPlace, ← Veil.onScope_insideScript]
      exact veiled_deliver v doc.addPlace.addPlace (scope.get .params) n
        (.script (node.scriptHead id) doc.parts.size (doc.parts.size + 1))
        (some (scope.insideScript doc.parts.size (doc.parts.size + 1)))
  | .param =>
    simp only [hparams]
    exact veiled_deliver v doc (scope.get .params) n (.value (node.paramValue literals)) none
  | .node | .namedParam | .variableParam | .objectParam | .pictureParam | .soundParam =>
    simp only [veiled_targetIn, hparams]
    cases targetIn node scope with
    | none => exact ⟨rfl, rfl⟩
    | some target =>
      exact veiled_deliver v (doc.addReference target _) (scope.get .params) n (.reference doc.references.size) none

end Evaluating

end SceneTree
