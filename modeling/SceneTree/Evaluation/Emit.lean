import SceneTree.Evaluation.State

/-!
# What nodes contribute

Each kind of node takes the bindings it needs from its scope, gets its id, and puts its entry into the collection of
the ancestor that it belongs to. The scope that it returns is the one that its children see; a node that returns none
takes no children.
-/

namespace SceneTree.Evaluating

/-- The binding at a place that a node needs. -/
def require (scope : NodeScope) (node : Node) (place : Place) (requirement : String) : Evaluating (Binding place) :=
  Attempt.ofExcept (scope.require node.called place requirement)

/-- A new place for parts of a script. -/
def newPlace : Evaluating Nat := Attempt.step fun e =>
  (e.document.parts.size, { e with document := { e.document with parts := e.document.parts.add .empty } })

/-- Puts a part of a script into a collecting place. -/
def collect (collector : Collector) (handle : Handle) (item : Item) : Evaluating Unit :=
  match collector with
  | .place index => updateDocument fun doc => { doc with parts := doc.parts.modify index (·.insert handle item) }
  | .foreign => Attempt.fail .noField

/-- The items of a value, as far as it has any. -/
def itemsOf (v : Value) : Evaluating (List Value) := Attempt.ofExcept v.items

/-- The object bound in a scope. -/
def objectAt (index : Nat) : Evaluating ObjectEntry := do
  match (← Attempt.state).document.objectCells.get? index with
  | some object => pure object
  | none => Attempt.fail .noField

/-- The function bound in a scope. -/
def functionAt (index : Nat) : Evaluating FunctionEntry := do
  match (← Attempt.state).document.functionCells.get? index with
  | some function => pure function
  | none => Attempt.fail .noField

/-- A project fills the document: it sets what the project says of itself and empties all collections. -/
def emitProject (node : Node) (scope : NodeScope) (handle : Handle) : Evaluating NodeScope := do
  let root ← require scope node .root "the compiler root"
  let interface ← (node.get .interface).toEntries
  let expansionBlocks ← itemsOf (node.get .expansionBlocks)
  let aiUtilizeBlocks ← itemsOf (node.get .aiUtilizeBlocks)
  let hardwareLiteBlocks ← itemsOf (node.get .hardwareLiteBlocks)
  let externalModules ← itemsOf (node.get .externalModules)
  let externalModulesLite ← itemsOf (node.get .externalModulesLite)
  updateDocument fun doc =>
    { doc with
      head := ⟨node.get .name, node.get .speed, interface, expansionBlocks, aiUtilizeBlocks, hardwareLiteBlocks,
        externalModules, externalModulesLite⟩
      scenes := .empty
      objects := .empty
      globals := .empty
      messages := .empty
      functions := .empty
      tables := .empty
      populatedBy := if doc.populatedBy.contains handle then doc.populatedBy else doc.populatedBy ++ [handle] }
  pure (scope.bind .project (some root))

/-- A scene is a scene of its project. -/
def emitScene (node : Node) (scope : NodeScope) (handle : Handle) : Evaluating NodeScope := do
  let _ ← require scope node .project "Project"
  let id ← instanceId handle (node.get .id)
  updateDocument fun doc => { doc with scenes := doc.scenes.insert handle ⟨id, node.get .name⟩ }
  pure (scope.bind .sceneId (some id))

/-- The looks of an object. Styling goes only to text boxes. -/
def entityOf (node : Node) : Entity :=
  let styling (field : Field) : Value := if (node.get .objectType).isText "textBox" then node.get field else .null
  { x := node.get .x
    y := node.get .y
    regX := node.get .regX
    regY := node.get .regY
    scaleX := node.get .scaleX
    scaleY := node.get .scaleY
    rotation := node.get .rotation
    direction := node.get .direction
    width := node.get .width
    height := node.get .height
    font := if (node.get .font).isNull then .str Entity.spriteFont else node.get .font
    visible := node.get .visible
    fontSize := styling .fontSize
    text := styling .text
    textAlign := styling .textAlign
    colour := styling .colour
    bgColor := styling .bgColor
    underLine := styling .underLine
    strike := styling .strike
    lineBreak := styling .lineBreak }

/-- An object is an object of its project, on its scene. The last one that is selected is the one that the interface of
the project shows. -/
def emitObject (node : Node) (scope : NodeScope) (handle : Handle) : Evaluating NodeScope := do
  let sceneId ← require scope node .sceneId "Scene"
  let _ ← require scope node .project "Project"
  let id ← instanceId handle (node.get .id)
  let blocks ← newPlace
  let entry : ObjectEntry :=
    { id := id
      name := node.get .name
      scene := sceneId
      lock := node.get .lock
      objectType := node.get .objectType
      rotateMethod := node.get .rotateMethod
      text := if (node.get .objectType).isText "textBox" then node.get .text else .null
      selectedPicture := .null
      entity := entityOf node
      pictures := .empty
      sounds := .empty
      blocks := blocks }
  let index := (← Attempt.state).document.objectCells.size
  updateDocument fun doc =>
    { doc with
      objectCells := doc.objectCells.add entry
      objects := doc.objects.insert handle index
      head := if (node.get .selected).truthy then
          { doc.head with interface := Entries.put doc.head.interface (.str "object") id }
        else doc.head }
  pure ((((scope.bind .object (some index)).bind .function none).bind .statements (some (.place blocks))).bind
    .params none)

/-- A picture is a picture of its object, which must be a sprite. The last one that is selected is the one that the
object shows. -/
def emitPicture (node : Node) (scope : NodeScope) (handle : Handle) : Evaluating Unit := do
  let index ← require scope node .object "SpriteObject"
  let object ← objectAt index
  if !object.objectType.isText "sprite" then Attempt.fail (.requires node.called "SpriteObject")
  else
    let id ← instanceId handle (node.get .id)
    let entry : PictureEntry :=
      ⟨id, node.get .name, node.get .fileurl, node.get .thumbUrl, node.get .imageType, node.get .width,
        node.get .height⟩
    updateDocument fun doc =>
      { doc with objectCells := doc.objectCells.modify index fun object =>
          { object with
            pictures := object.pictures.insert handle entry
            selectedPicture := if (node.get .selected).truthy then id else object.selectedPicture } }

/-- A sound is a sound of its object. -/
def emitSound (node : Node) (scope : NodeScope) (handle : Handle) : Evaluating Unit := do
  let index ← require scope node .object "Object"
  let id ← instanceId handle (node.get .id)
  let entry : SoundEntry := ⟨id, node.get .name, node.get .fileurl, node.get .duration, node.get .ext⟩
  updateDocument fun doc =>
    { doc with objectCells := doc.objectCells.modify index fun object =>
        { object with sounds := object.sounds.insert handle entry } }

/-- A variable is a variable of its project; inside an object it belongs to the object. -/
def emitVariable (node : Node) (scope : NodeScope) (handle : Handle) : Evaluating Unit := do
  let _ ← require scope node .project "Project"
  let owner ← match scope.get .object with
    | some index => do pure (← objectAt index).id
    | none => pure .null
  let id ← instanceId handle (node.get .id)
  let entry : VariableEntry :=
    ⟨id, node.get .name, node.get .value, node.get .visible, node.get .x, node.get .y, owner, node.get .isCloud,
      node.get .isRealTime, node.get .cloudDate⟩
  updateDocument fun doc => { doc with globals := doc.globals.insert handle entry }

/-- A message is a message of its project. -/
def emitMessage (node : Node) (scope : NodeScope) (handle : Handle) : Evaluating Unit := do
  let _ ← require scope node .project "Project"
  let id ← instanceId handle (node.get .id)
  updateDocument fun doc => { doc with messages := doc.messages.insert handle ⟨id, node.get .name⟩ }

/-- A function is a function of its project. -/
def emitFunction (node : Node) (scope : NodeScope) (handle : Handle) : Evaluating NodeScope := do
  let _ ← require scope node .project "Project"
  let id ← instanceId handle (node.get .id)
  let content ← newPlace
  let entry : FunctionEntry :=
    { id := id
      type := node.get .type
      useLocalVariables := node.get .useLocalVariables
      locals := .empty
      content := content }
  let index := (← Attempt.state).document.functionCells.size
  updateDocument fun doc =>
    { doc with
      functionCells := doc.functionCells.add entry
      functions := doc.functions.insert handle index }
  pure (((scope.bind .function (some index)).bind .statements (some (.place content))).bind .params none)

/-- A local variable is one of its function; its id begins with that of the function. -/
def emitLocalVariable (node : Node) (scope : NodeScope) (handle : Handle) : Evaluating Unit := do
  let index ← require scope node .function "Function"
  let function ← functionAt index
  let own ← instanceId handle .null
  let entry : LocalVariableEntry :=
    ⟨.str (function.id.toText ++ "_" ++ own.toText), node.get .name, node.get .value⟩
  updateDocument fun doc =>
    { doc with functionCells := doc.functionCells.modify index fun function =>
        { function with locals := function.locals.insert handle entry } }

/-- A table is a table of its project. -/
def emitTable (node : Node) (scope : NodeScope) (handle : Handle) : Evaluating Unit := do
  let _ ← require scope node .project "Project"
  let data ← (node.get .data).toEntries
  updateDocument fun doc => { doc with tables := doc.tables.insert handle data }

/-- A statement is a block of the script, function or object around it, and collects the scripts inside it. -/
def emitStatement (node : Node) (scope : NodeScope) (handle : Handle) : Evaluating NodeScope := do
  let statements ← require scope node .statements "Script or Object"
  let block ← newPlace
  collect statements handle (.block block)
  pure (scope.bind .params (some (.place block)))

/-- A script is one of the scripts of its statement or one of the parameters of its script. -/
def emitScript (node : Node) (scope : NodeScope) (handle : Handle) : Evaluating NodeScope := do
  let collector ← require scope node .params "Statement or Script"
  let id ← instanceId handle .null
  let extensions ← itemsOf (node.get .extensions)
  let head : ScriptHead :=
    ⟨id, node.get .type, node.get .x, node.get .y, node.get .assemble, node.get .copyable, node.get .deletable,
      node.get .emphasized, node.get .movable, node.get .readOnly, extensions⟩
  let params ← newPlace
  let statements ← newPlace
  collect collector handle (.script head params statements)
  pure ((scope.bind .params (some (.place params))).bind .statements (some (.place statements)))

/-- A parameter is the one value that was given for it, as an attribute or as a child, or null. -/
def emitParam (node : Node) (literals : List Value) (scope : NodeScope) (handle : Handle) : Evaluating Unit := do
  let collector ← require scope node .params "Statement or Script"
  let values := if (node.get .value).isNull then literals else node.get .value :: literals
  match values with
  | [] => collect collector handle (.value .null)
  | [v] => collect collector handle (.value v)
  | _ => Attempt.fail (.tooManyValues node.called values.length)

/-- Where the name of a named parameter is looked for. -/
def namedTarget (node : Node) (scope : NodeScope) : Evaluating Target := do
  match node.kind with
  | .variableParam =>
    let _ ← require scope node .project "Project"
    pure .globals
  | .objectParam =>
    let _ ← require scope node .project "Project"
    pure .objects
  | .pictureParam => pure (.pictures (← require scope node .object "Object"))
  | .soundParam => pure (.sounds (← require scope node .object "Object"))
  | kind => Attempt.fail (.unsupportedParam kind.title)

/-- A named parameter is a reference. -/
def emitNamedParam (node : Node) (scope : NodeScope) (handle : Handle) : Evaluating Unit := do
  let collector ← require scope node .params "Script"
  let target ← namedTarget node scope
  let index := (← Attempt.state).document.references.size
  let reference := Reference.ofName node.targetCalled (node.get .name)
  updateDocument fun doc => { doc with references := doc.references.add (target, reference) }
  collect collector handle (.reference index)

/-- The contribution of a node with some literal children. -/
def emit (node : Node) (literals : List Value) (scope : NodeScope) (handle : Handle) :
    Evaluating (Option NodeScope) := do
  match node.kind with
  | .fragment => pure (some scope)
  | .project => pure (some (← emitProject node scope handle))
  | .scene => pure (some (← emitScene node scope handle))
  | .object | .sprite | .textBox => pure (some (← emitObject node scope handle))
  | .picture => emitPicture node scope handle; pure none
  | .sound => emitSound node scope handle; pure none
  | .variable => emitVariable node scope handle; pure none
  | .message => emitMessage node scope handle; pure none
  | .function => pure (some (← emitFunction node scope handle))
  | .localVariable => emitLocalVariable node scope handle; pure none
  | .table => emitTable node scope handle; pure none
  | .statement => pure (some (← emitStatement node scope handle))
  | .script => pure (some (← emitScript node scope handle))
  | .param => emitParam node literals scope handle; pure none
  | .namedParam | .variableParam | .objectParam | .pictureParam | .soundParam =>
    emitNamedParam node scope handle; pure none
  | .node => Attempt.fail (.unsupportedNode node.kind.title)

end SceneTree.Evaluating
