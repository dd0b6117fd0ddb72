import SceneTree.Compile

/-!
# What nodes need, request and contribute

A contribution in three stages. A node is admitted, or not, by what its scope binds and by the values on it
(`admission`); it requests an id, if nodes of its kind have one (`request`); it puts its entry into the document and
makes the scope of its children (`contribute`). The entries are functions of the node and its id, and the changes of the
document functions of the document, so that statements about either need not know of the other.
-/

namespace SceneTree

/-- The items of a value that has items, and no items otherwise. -/
def Value.itemList (v : Value) : List Value := v.items.toOption.getD []

/-- The entries of a value that can be taken for a map, and no entries otherwise. -/
def Value.entryList (v : Value) : Entries := v.toEntries.toOption.getD []

namespace Node

/-- The id that a node requests: the authored one, or a null one for a new id. Nodes of some kinds have no id. -/
def requestedId? (node : Node) : Option Value :=
  match node.kind with
  | .scene | .object | .sprite | .textBox | .picture | .sound | .variable | .message | .function => some (node.get .id)
  | .localVariable | .script => some .null
  | _ => none

/-- What a project says of itself. -/
def projectHead (node : Node) : ProjectHead :=
  ⟨node.get .name, node.get .speed, (node.get .interface).entryList, (node.get .expansionBlocks).itemList,
    (node.get .aiUtilizeBlocks).itemList, (node.get .hardwareLiteBlocks).itemList,
    (node.get .externalModules).itemList, (node.get .externalModulesLite).itemList⟩

/-- The entry of a scene. -/
def sceneEntry (node : Node) (id : Value) : SceneEntry := ⟨id, node.get .name⟩

/-- What an attribute says that only a text box shows. -/
def ofTextBox (node : Node) (field : Field) : Value :=
  if (node.get .objectType).isText "textBox" then node.get field else .null

/-- An object of a scene, as far as it is said by the object itself. -/
def objectHead (node : Node) (id scene : Value) : ObjectHead :=
  { id := id
    name := node.get .name
    scene := scene
    lock := node.get .lock
    objectType := node.get .objectType
    rotateMethod := node.get .rotateMethod
    text := node.ofTextBox .text
    selectedPicture := .null }

/-- The looks of an object. -/
def looks (node : Node) : Entity where
  x := node.get .x
  y := node.get .y
  regX := node.get .regX
  regY := node.get .regY
  scaleX := node.get .scaleX
  scaleY := node.get .scaleY
  rotation := node.get .rotation
  direction := node.get .direction
  width := node.get .width
  height := node.get .height
  font := if (node.get .font).isNull then .str "undefinedpx " else node.get .font
  visible := node.get .visible
  fontSize := node.ofTextBox .fontSize
  text := node.ofTextBox .text
  textAlign := node.ofTextBox .textAlign
  colour := node.ofTextBox .colour
  bgColor := node.ofTextBox .bgColor
  underLine := node.ofTextBox .underLine
  strike := node.ofTextBox .strike
  lineBreak := node.ofTextBox .lineBreak

/-- The entry of an object before anything inside it has contributed. -/
def objectEntry (node : Node) (id scene : Value) (blocks : Nat) : ObjectEntry :=
  { node.objectHead id scene with
    entity := node.looks
    pictures := .empty
    sounds := .empty
    blocks := blocks }

/-- The entry of a picture. -/
def pictureEntry (node : Node) (id : Value) : PictureEntry :=
  ⟨id, node.get .name, node.get .fileurl, node.get .thumbUrl, node.get .imageType, node.get .width, node.get .height⟩

/-- The entry of a sound. -/
def soundEntry (node : Node) (id : Value) : SoundEntry :=
  ⟨id, node.get .name, node.get .fileurl, node.get .duration, node.get .ext⟩

/-- The entry of a variable that belongs to an object, or to none. -/
def variableEntry (node : Node) (id owner : Value) : VariableEntry :=
  ⟨id, node.get .name, node.get .value, node.get .visible, node.get .x, node.get .y, owner, node.get .isCloud,
    node.get .isRealTime, node.get .cloudDate⟩

/-- The entry of a message. -/
def messageEntry (node : Node) (id : Value) : MessageEntry := ⟨id, node.get .name⟩

/-- A function, as far as it is said by the function itself. -/
def functionHead (node : Node) (id : Value) : FunctionHead := ⟨id, node.get .type, node.get .useLocalVariables⟩

/-- The entry of a function before anything inside it has contributed. -/
def functionEntry (node : Node) (id : Value) (content : Nat) : FunctionEntry :=
  { node.functionHead id with
    locals := .empty
    content := content }

/-- The entry of a local variable; its id begins with that of its function. -/
def localEntry (node : Node) (id function : Value) : LocalVariableEntry :=
  ⟨.str (function.toText ++ "_" ++ id.toText), node.get .name, node.get .value⟩

/-- A script without its parameters and statements. -/
def scriptHead (node : Node) (id : Value) : ScriptHead :=
  ⟨id, node.get .type, node.get .x, node.get .y, node.get .assemble, node.get .copyable, node.get .deletable,
    node.get .emphasized, node.get .movable, node.get .readOnly, (node.get .extensions).itemList⟩

/-- The values given for a parameter: the authored one, if there is one, and those among its children. -/
def paramValues (node : Node) (literals : List Value) : List Value :=
  if (node.get .value).isNull then literals else node.get .value :: literals

/-- The value of a parameter. -/
def paramValue (node : Node) (literals : List Value) : Value := (node.paramValues literals).headD .null

end Node

namespace Document

/-- The document that a project fills: its collections are empty. -/
def populate (doc : Document) (head : ProjectHead) (handle : Handle) : Document :=
  { doc with
    head := head
    scenes := .empty
    objects := .empty
    globals := .empty
    messages := .empty
    functions := .empty
    tables := .empty
    populatedBy := if doc.populatedBy.contains handle then doc.populatedBy else doc.populatedBy ++ [handle] }

/-- The document with a scene. -/
def addScene (doc : Document) (handle : Handle) (entry : SceneEntry) : Document :=
  { doc with scenes := doc.scenes.insert handle entry }

/-- The document with an object, which the interface of the project shows if it is selected. -/
def addObject (doc : Document) (handle : Handle) (entry : ObjectEntry) (selected : Bool) : Document :=
  { doc with
    objectCells := doc.objectCells.add entry
    objects := doc.objects.insert handle doc.objectCells.size
    head := if selected then
        { doc.head with interface := Entries.put doc.head.interface (.str "object") entry.id }
      else doc.head }

/-- The document with one of its objects changed. -/
def changeObject (doc : Document) (index : Nat) (f : ObjectEntry → ObjectEntry) : Document :=
  { doc with objectCells := doc.objectCells.modify index f }

/-- The document with a variable. -/
def addVariable (doc : Document) (handle : Handle) (entry : VariableEntry) : Document :=
  { doc with globals := doc.globals.insert handle entry }

/-- The document with a message. -/
def addMessage (doc : Document) (handle : Handle) (entry : MessageEntry) : Document :=
  { doc with messages := doc.messages.insert handle entry }

/-- The document with a function. -/
def addFunction (doc : Document) (handle : Handle) (entry : FunctionEntry) : Document :=
  { doc with
    functionCells := doc.functionCells.add entry
    functions := doc.functions.insert handle doc.functionCells.size }

/-- The document with one of its functions changed. -/
def changeFunction (doc : Document) (index : Nat) (f : FunctionEntry → FunctionEntry) : Document :=
  { doc with functionCells := doc.functionCells.modify index f }

/-- The document with a table. -/
def addTable (doc : Document) (handle : Handle) (data : Entries) : Document :=
  { doc with tables := doc.tables.insert handle data }

/-- The document with a new collecting place. -/
def addPlace (doc : Document) : Document := { doc with parts := doc.parts.add .empty }

/-- The document with an item in a collecting place. -/
def putItem (doc : Document) (place : Nat) (handle : Handle) (item : Item) : Document :=
  { doc with parts := doc.parts.modify place (·.insert handle item) }

/-- The document with a reference. -/
def addReference (doc : Document) (target : Target) (reference : Reference) : Document :=
  { doc with references := doc.references.add (target, reference) }

/-- The id of the object bound in a scope, to which the variables in it belong; null where none is bound. -/
def ownerIn (doc : Document) (scope : NodeScope) : Value :=
  match scope.get .object with
  | some index => ((doc.objectCells.get? index).map (·.id)).getD .null
  | none => .null

/-- The id of the function bound in a scope, with which the ids of the local variables in it begin. -/
def functionIn (doc : Document) (scope : NodeScope) : Value :=
  match scope.get .function with
  | some index => ((doc.functionCells.get? index).map (·.id)).getD .null
  | none => .null

end Document

/-- An object with a picture, which it shows if the picture is selected. -/
def ObjectEntry.addPicture (object : ObjectEntry) (handle : Handle) (entry : PictureEntry) (selected : Bool) :
    ObjectEntry :=
  { object with
    pictures := object.pictures.insert handle entry
    selectedPicture := if selected then entry.id else object.selectedPicture }

/-- An object with a sound. -/
def ObjectEntry.addSound (object : ObjectEntry) (handle : Handle) (entry : SoundEntry) : ObjectEntry :=
  { object with sounds := object.sounds.insert handle entry }

/-- A function with a local variable. -/
def FunctionEntry.addLocal (function : FunctionEntry) (handle : Handle) (entry : LocalVariableEntry) : FunctionEntry :=
  { function with locals := function.locals.insert handle entry }

namespace NodeScope

/-- The id of the scene bound in a scope, on which the objects in it stand. -/
def sceneIn (scope : NodeScope) : Value := (scope.get .sceneId).getD Value.null

/-- The scope inside an object with a place for its scripts. -/
def insideObject (scope : NodeScope) (index blocks : Nat) : NodeScope :=
  (((scope.bind .object (some index)).bind .function none).bind .statements (some (.place blocks))).bind .params none

/-- The scope inside a function with a place for its content. -/
def insideFunction (scope : NodeScope) (index content : Nat) : NodeScope :=
  ((scope.bind .function (some index)).bind .statements (some (.place content))).bind .params none

/-- The scope inside a statement with a place for its scripts. -/
def insideStatement (scope : NodeScope) (block : Nat) : NodeScope := scope.bind .params (some (.place block))

/-- The scope inside a script with places for its parameters and its statements. -/
def insideScript (scope : NodeScope) (params statements : Nat) : NodeScope :=
  (scope.bind .params (some (.place params))).bind .statements (some (.place statements))

end NodeScope

namespace Evaluating

/-- Whether the object bound in a scope, if there is one, is an object of the document. -/
def hasBoundObject (scope : NodeScope) (doc : Document) : Except Fault Unit :=
  match scope.get .object with
  | some index => if (doc.objectCells.get? index).isSome then .ok () else .error .noField
  | none => .ok ()

/-- What a node needs of its scope, of the values on it and of the literals among its children. -/
def admission (node : Node) (literals : List Value) (scope : NodeScope) (doc : Document) : Except Fault Unit := do
  match node.kind with
  | .fragment => pure ()
  | .project =>
    let _ ← scope.require node.called .root "the compiler root"
    let _ ← (node.get .interface).toEntries
    let _ ← (node.get .expansionBlocks).items
    let _ ← (node.get .aiUtilizeBlocks).items
    let _ ← (node.get .hardwareLiteBlocks).items
    let _ ← (node.get .externalModules).items
    let _ ← (node.get .externalModulesLite).items
  | .scene | .message | .function =>
    let _ ← scope.require node.called .project "Project"
  | .object | .sprite | .textBox =>
    let _ ← scope.require node.called .sceneId "Scene"
    let _ ← scope.require node.called .project "Project"
  | .picture =>
    let index ← scope.require node.called .object "SpriteObject"
    match doc.objectCells.get? index with
    | some object =>
      if !object.objectType.isText "sprite" then throw (.requires node.called "SpriteObject")
    | none => throw .noField
  | .sound =>
    let _ ← scope.require node.called .object "Object"
  | .variable =>
    let _ ← scope.require node.called .project "Project"
    hasBoundObject scope doc
  | .localVariable =>
    let index ← scope.require node.called .function "Function"
    if (doc.functionCells.get? index).isNone then throw .noField
  | .table =>
    let _ ← scope.require node.called .project "Project"
    let _ ← (node.get .data).toEntries
  | .statement =>
    let _ ← scope.require node.called .statements "Script or Object"
  | .script =>
    let _ ← scope.require node.called .params "Statement or Script"
  | .param =>
    let _ ← scope.require node.called .params "Statement or Script"
    if 1 < (node.paramValues literals).length then
      throw (.tooManyValues node.called (node.paramValues literals).length)
  | .variableParam | .objectParam =>
    let _ ← scope.require node.called .params "Script"
    let _ ← scope.require node.called .project "Project"
  | .pictureParam | .soundParam =>
    let _ ← scope.require node.called .params "Script"
    let _ ← scope.require node.called .object "Object"
  | .namedParam =>
    let _ ← scope.require node.called .params "Script"
    throw (.unsupportedParam node.kind.title)
  | .node => throw (.unsupportedNode node.kind.title)

/-- The id that a node gets, null if it has none. -/
def request (node : Node) (handle : Handle) : Evaluating Value :=
  match node.requestedId? with
  | some authored => instanceId handle authored
  | none => pure .null

/-- An item goes to the collecting place bound in a scope; what comes of it is the scope of the children. -/
def deliver (collector : Option Collector) (handle : Handle) (item : Item) (inner : Option NodeScope) :
    Attempt Document (Option NodeScope) := fun doc =>
  match collector with
  | some (.place place) => (.ok inner, doc.putItem place handle item)
  | _ => (.error .noField, doc)

/-- Where the name of a named parameter is looked for in a scope. -/
def targetIn (node : Node) (scope : NodeScope) : Option Target :=
  match node.kind with
  | .variableParam => some .globals
  | .objectParam => some .objects
  | .pictureParam => (scope.get .object).map Target.pictures
  | .soundParam => (scope.get .object).map Target.sounds
  | _ => none

/-- What a node that was admitted puts into the document, and the scope that it leaves to its children. -/
def contribute (node : Node) (literals : List Value) (scope : NodeScope) (handle : Handle) (id : Value) :
    Attempt Document (Option NodeScope) := fun doc =>
  match node.kind with
  | .fragment => (.ok (some scope), doc)
  | .project => (.ok (some (scope.bind .project (some ()))), doc.populate node.projectHead handle)
  | .scene => (.ok (some (scope.bind .sceneId (some id))), doc.addScene handle (node.sceneEntry id))
  | .object | .sprite | .textBox =>
    (.ok (some (scope.insideObject doc.objectCells.size doc.parts.size)),
      doc.addPlace.addObject handle (node.objectEntry id scope.sceneIn doc.parts.size) (node.get .selected).truthy)
  | .picture =>
    match scope.get .object with
    | some index =>
      (.ok none, doc.changeObject index (·.addPicture handle (node.pictureEntry id) (node.get .selected).truthy))
    | none => (.error .noField, doc)
  | .sound =>
    match scope.get .object with
    | some index => (.ok none, doc.changeObject index (·.addSound handle (node.soundEntry id)))
    | none => (.error .noField, doc)
  | .variable => (.ok none, doc.addVariable handle (node.variableEntry id (doc.ownerIn scope)))
  | .message => (.ok none, doc.addMessage handle (node.messageEntry id))
  | .function =>
    (.ok (some (scope.insideFunction doc.functionCells.size doc.parts.size)),
      doc.addPlace.addFunction handle (node.functionEntry id doc.parts.size))
  | .localVariable =>
    match scope.get .function with
    | some index =>
      (.ok none, doc.changeFunction index (·.addLocal handle (node.localEntry id (doc.functionIn scope))))
    | none => (.error .noField, doc)
  | .table => (.ok none, doc.addTable handle (node.get .data).entryList)
  | .statement =>
    deliver (scope.get .statements) handle (.block doc.parts.size) (some (scope.insideStatement doc.parts.size))
      doc.addPlace
  | .script =>
    match (node.get .extensions).items with
    | .ok _ =>
      deliver (scope.get .params) handle (.script (node.scriptHead id) doc.parts.size (doc.parts.size + 1))
        (some (scope.insideScript doc.parts.size (doc.parts.size + 1))) doc.addPlace.addPlace
    | .error fault => (.error fault, doc)
  | .param => deliver (scope.get .params) handle (.value (node.paramValue literals)) none doc
  | .node | .namedParam | .variableParam | .objectParam | .pictureParam | .soundParam =>
    match targetIn node scope with
    | some target =>
      deliver (scope.get .params) handle (.reference doc.references.size) none
        (doc.addReference target (Reference.ofName node.targetCalled (node.get .name)))
    | none => (.error .noField, doc)

end Evaluating

end SceneTree
