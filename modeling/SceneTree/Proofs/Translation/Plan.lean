import SceneTree.Proofs.Evaluation.Walk

/-!
# What a tree says

A tree whose nodes have their ids describes a document without any evaluation. Each collection is gathered from the tree
in one walk, parents before children, and every entry depends on its node and on what stands above and below it: a
variable on the nearest object above, an object on the nearest scene above and on the pictures, sounds and statements
below. Nothing is changed on the way.
-/

namespace SceneTree

/-- A node in a tree, with its id and the trees below it. -/
structure Branch where
  id : Value
  node : Node
  children : List (Tree Value)

/-- The kind of the node. -/
def Branch.kind (b : Branch) : Kind := b.node.kind

namespace Tree

section Gather

variable {κ α : Type}

mutual

/-- What the nodes of a tree have to offer, parents before children and the children in order. What a node offers may
depend on what the nodes above it have made of a context. -/
def gather (step : κ → Branch → κ) (piece : κ → Branch → Option α) (c : κ) : Tree Value → List α
  | .node id data children =>
    (piece c ⟨id, data, children⟩).toList ++ gatherOf step piece (step c ⟨id, data, children⟩) children
  | .literal _ => []

/-- What the nodes of several trees have to offer. -/
def gatherOf (step : κ → Branch → κ) (piece : κ → Branch → Option α) (c : κ) : List (Tree Value) → List α
  | [] => []
  | t :: rest => gather step piece c t ++ gatherOf step piece c rest

end

/-- What nodes have to offer wherever they stand. -/
def each (piece : Branch → Option α) (forest : List (Tree Value)) : List α :=
  gatherOf (fun _ _ => ()) (fun _ => piece) () forest

end Gather

mutual

/-- What holds of a tree by itself if what holds of some trees is built up from their nodes. -/
theorem tree_induction {motive : List (Tree Value) → Prop} (nil : motive [])
    (literal : ∀ v rest, motive rest → motive (.literal v :: rest))
    (node : ∀ (b : Branch) rest, motive b.children → motive rest → motive (.node b.id b.node b.children :: rest)) :
    (t : Tree Value) → ∀ rest, motive rest → motive (t :: rest)
  | .literal v, rest, hr => literal v rest hr
  | .node id data children, rest, hr => node ⟨id, data, children⟩ rest (forest_induction nil literal node children) hr

/-- What holds of some trees if it is built up from their nodes, each with what is below it and what comes after it. -/
@[elab_as_elim]
theorem forest_induction {motive : List (Tree Value) → Prop} (nil : motive [])
    (literal : ∀ v rest, motive rest → motive (.literal v :: rest))
    (node : ∀ (b : Branch) rest, motive b.children → motive rest → motive (.node b.id b.node b.children :: rest)) :
    (forest : List (Tree Value)) → motive forest
  | [] => nil
  | t :: rest => tree_induction nil literal node t rest (forest_induction nil literal node rest)

end

section

variable {κ α : Type} {step : κ → Branch → κ} {piece : κ → Branch → Option α} {c : κ}

/-- What a node offers comes first, then what is below it, then what comes after it. -/
theorem gatherOf_node (b : Branch) (rest : List (Tree Value)) :
    gatherOf step piece c (.node b.id b.node b.children :: rest) =
      (piece c b).toList ++ (gatherOf step piece (step c b) b.children ++ gatherOf step piece c rest) := by
  rw [gatherOf, gather, List.append_assoc]

/-- What is offered is offered by the first node, below it or after it. -/
theorem mem_gatherOf_node {b : Branch} {rest : List (Tree Value)} {x : α} :
    x ∈ gatherOf step piece c (.node b.id b.node b.children :: rest) ↔
      piece c b = some x ∨ x ∈ gatherOf step piece (step c b) b.children ∨ x ∈ gatherOf step piece c rest := by
  rw [gatherOf_node, List.mem_append, List.mem_append, Option.mem_toList]

/-- Plain values have nothing to offer. -/
theorem gatherOf_of_nodesOf_eq_nil {forest : List (Tree Value)} (h : nodesOf forest = []) :
    gatherOf step piece c forest = [] := by
  induction forest with
  | nil => rfl
  | cons t rest ih =>
    rw [nodesOf, List.append_eq_nil_iff] at h
    rw [gatherOf, ih h.2]
    cases t with
    | literal v => rfl
    | node id data children => cases h.1

end

end Tree

/-- What the names in parameters may mean. -/
structure Names where
  globals : Candidates
  objects : Candidates
  pictures : Candidates
  sounds : Candidates

namespace Branch

/-- The entry of a scene. -/
def scene? (b : Branch) : Option SceneEntry := if b.kind = .scene then some (b.node.sceneEntry b.id) else none

/-- The entry of a message. -/
def message? (b : Branch) : Option MessageEntry := if b.kind = .message then some (b.node.messageEntry b.id) else none

/-- The data of a table. -/
def table? (b : Branch) : Option Entries := if b.kind = .table then some (b.node.get .data).entryList else none

/-- The entry of a variable that belongs to some object, or to none. -/
def global? (owner : Value) (b : Branch) : Option VariableEntry :=
  if b.kind = .variable then some (b.node.variableEntry b.id owner) else none

/-- The entry of a picture, if its object is the one in question. -/
def picture? (own : Bool) (b : Branch) : Option PictureEntry :=
  if own ∧ b.kind = .picture then some (b.node.pictureEntry b.id) else none

/-- The id of a selected picture, if its object is the one in question. -/
def selectedPicture? (own : Bool) (b : Branch) : Option Value :=
  if own ∧ b.kind = .picture ∧ (b.node.get .selected).truthy then some b.id else none

/-- The entry of a sound, if its object is the one in question. -/
def sound? (own : Bool) (b : Branch) : Option SoundEntry :=
  if own ∧ b.kind = .sound then some (b.node.soundEntry b.id) else none

/-- The entry of a local variable of a function, if its function is the one in question. -/
def local? (function : Value) (own : Bool) (b : Branch) : Option LocalVariableEntry :=
  if own ∧ b.kind = .localVariable then some (b.node.localEntry b.id function) else none

/-- The id of a selected object. -/
def selectedObject? (b : Branch) : Option Value :=
  if b.kind.isObject ∧ (b.node.get .selected).truthy then some b.id else none

/-- The project of a tree. -/
def project? (b : Branch) : Option Node := if b.kind = .project then some b.node else none

/-- The id and name of a variable. -/
def variableName? (b : Branch) : Option (Value × Value) :=
  if b.kind = .variable then some (b.id, b.node.get .name) else none

/-- The id and name of an object. -/
def objectName? (b : Branch) : Option (Value × Value) :=
  if b.kind.isObject then some (b.id, b.node.get .name) else none

/-- The nearest object: the node itself or the one above. -/
def objectBelow (owner : Value) (b : Branch) : Value := if b.kind.isObject then b.id else owner

/-- The nearest scene: the node itself or the one above. -/
def sceneBelow (scene : Value) (b : Branch) : Value := if b.kind = .scene then b.id else scene

/-- Whether the nearest object is still the one in question. -/
def ownObjectBelow (own : Bool) (b : Branch) : Bool := own && !b.kind.isObject

/-- Whether the nearest object or function is still the one in question. -/
def ownFunctionBelow (own : Bool) (b : Branch) : Bool := own && !(b.kind.isObject || b.kind == .function)

/-- The pictures of an object, which is the nearest one above each of them. -/
def pictures (b : Branch) : List PictureEntry := Tree.gatherOf ownObjectBelow picture? true b.children

/-- The sounds of an object. -/
def sounds (b : Branch) : List SoundEntry := Tree.gatherOf ownObjectBelow sound? true b.children

/-- The picture that an object shows: the last of its own that is selected. -/
def selectedPicture (b : Branch) : Value :=
  (Tree.gatherOf ownObjectBelow selectedPicture? true b.children).getLastD .null

/-- The local variables of a function, which is the nearest object or function above each of them. -/
def locals (b : Branch) : List LocalVariableEntry := Tree.gatherOf ownFunctionBelow (local? b.id) true b.children

/-- What names mean below a node: an object makes its own pictures and sounds known. -/
def namesBelow (names : Names) (b : Branch) : Names :=
  if b.kind.isObject then
    { names with
      pictures := b.pictures.map fun e => (e.id, e.name)
      sounds := b.sounds.map fun e => (e.id, e.name) }
  else names

/-- What the name of a parameter may mean. -/
def candidates (names : Names) (b : Branch) : Candidates :=
  match b.kind with
  | .variableParam => names.globals
  | .objectParam => names.objects
  | .pictureParam => names.pictures
  | .soundParam => names.sounds
  | _ => []

/-- A named parameter: a lookup of its name. -/
def lookup (names : Names) (b : Branch) : Value :=
  .lookup (.given 0) b.node.targetCalled (b.node.get .name) (b.candidates names)

end Branch

/-- The parts of scripts that some trees give to what is around them: statements, and parameters. -/
structure Parts where
  statements : List Value
  params : List Value

namespace Parts

/-- No parts. -/
def none : Parts := ⟨[], []⟩

/-- The parts of two forests in a row. -/
def append (a b : Parts) : Parts := ⟨a.statements ++ b.statements, a.params ++ b.params⟩

end Parts

/-- What a node gives to what is around it, from what its children give. A statement is a block that holds the
parameters given inside it, and the statements given inside it go on to where it stands; a script holds both. Objects
and functions keep everything for themselves, and nodes without a part in scripts let everything pass. -/
def Branch.parts (names : Names) (b : Branch) (inner : Parts) : Parts :=
  match b.kind with
  | .fragment | .project | .scene => inner
  | .statement => ⟨.slot inner.params :: inner.statements, []⟩
  | .script => ⟨[], [(b.node.scriptHead b.id).toRecord (.slot inner.params) (.slot inner.statements)]⟩
  | .param => ⟨[], [b.node.paramValue (Tree.literals b.children)]⟩
  | .variableParam | .objectParam | .pictureParam | .soundParam => ⟨[], [b.lookup names]⟩
  | _ => .none

mutual

/-- The parts of scripts that a tree gives to what is around it. -/
def Tree.parts (names : Names) : Tree Value → Parts
  | .node id data children => Branch.parts names ⟨id, data, children⟩ (Tree.partsOf names children)
  | .literal _ => .none

/-- The parts of scripts that some trees give to what is around them. -/
def Tree.partsOf (names : Names) : List (Tree Value) → Parts
  | [] => .none
  | t :: rest => (Tree.parts names t).append (Tree.partsOf names rest)

end

/-- An object as a tree describes it. -/
structure ObjectPlan extends ObjectHead where
  entity : Entity
  pictures : List PictureEntry
  sounds : List SoundEntry
  script : List Value

/-- A function as a tree describes it. -/
structure FunctionPlan extends FunctionHead where
  locals : List LocalVariableEntry
  content : List Value

/-- A document as a tree describes it. -/
structure Plan where
  head : ProjectHead
  scenes : List SceneEntry
  objects : List ObjectPlan
  globals : List VariableEntry
  messages : List MessageEntry
  functions : List FunctionPlan
  tables : List Entries

namespace Branch

/-- The object that a node describes, standing on a scene. -/
def object (names : Names) (scene : Value) (b : Branch) : ObjectPlan :=
  { b.node.objectHead b.id scene with
    selectedPicture := b.selectedPicture
    entity := b.node.looks
    pictures := b.pictures
    sounds := b.sounds
    script := (Tree.partsOf (b.namesBelow names) b.children).statements }

/-- The object that a node describes, if it describes one. -/
def object? (names : Names) (scene : Value) (b : Branch) : Option ObjectPlan :=
  if b.kind.isObject then some (b.object names scene) else none

/-- The function that a node describes. -/
def function (names : Names) (b : Branch) : FunctionPlan :=
  { b.node.functionHead b.id with
    locals := b.locals
    content := (Tree.partsOf names b.children).statements }

/-- The function that a node describes, if it describes one. -/
def function? (names : Names) (b : Branch) : Option FunctionPlan :=
  if b.kind = .function then some (b.function names) else none

end Branch

/-- A project with an object that its interface shows. -/
def ProjectHead.showing (head : ProjectHead) (id : Value) : ProjectHead :=
  { head with interface := Entries.put head.interface (.str "object") id }

namespace Tree

/-- What names in a document may mean, outside of all objects. -/
def names (forest : List (Tree Value)) : Names :=
  ⟨each Branch.variableName? forest, each Branch.objectName? forest, [], []⟩

/-- What the project in a tree says of itself. The interface shows the last object that is selected. -/
def head (forest : List (Tree Value)) : ProjectHead :=
  match (each Branch.project? forest).head? with
  | some project =>
    match (each Branch.selectedObject? forest).getLast? with
    | some id => project.projectHead.showing id
    | none => project.projectHead
  | none => Document.empty.head

/-- The document that some trees describe. -/
def plan (forest : List (Tree Value)) : Plan where
  head := head forest
  scenes := each Branch.scene? forest
  objects := gatherOf Branch.sceneBelow (Branch.object? (names forest)) .null forest
  globals := gatherOf Branch.objectBelow Branch.global? .null forest
  messages := each Branch.message? forest
  functions := gatherOf Branch.namesBelow Branch.function? (names forest) forest
  tables := each Branch.table? forest

end Tree

/-- The layout of an object, with its script as a text. -/
def ObjectPlan.layout (object : ObjectPlan) : Except Fault Value := do
  let script ← ((Value.slot object.script).dump []).1
  .ok (object.toObjectHead.layout script (object.pictures.map PictureEntry.layout)
    (object.sounds.map SoundEntry.layout) object.entity.layout)

/-- The layout of a function, with its content as a text. -/
def FunctionPlan.layout (function : FunctionPlan) : Except Fault Value := do
  let locals := function.locals.map LocalVariableEntry.layout
  let shown := function.useLocalVariables.truthy || !locals.isEmpty
  let content ← ((Value.slot function.content).dump []).1
  .ok (function.toFunctionHead.layout (if shown then some locals else none) content)

/-- The layout of a document. -/
def Plan.layout (plan : Plan) : Except Fault Value := do
  let objects ← plan.objects.mapM ObjectPlan.layout
  let functions ← plan.functions.mapM FunctionPlan.layout
  let tables ← plan.tables.mapM fun table => ((Value.map table).encode []).1
  .ok (plan.head.layout (plan.scenes.map SceneEntry.layout) objects (plan.globals.map VariableEntry.layout)
    (plan.messages.map MessageEntry.layout) functions tables)

end SceneTree
