import SceneTree.Value.Basic

/-!
# Entries of a document

What a project document consists of, and the object that each entry is laid out as. Whatever holds other entries gets
the layout of these from outside.
-/

namespace SceneTree

/-- The map that gives values to texts. -/
def Value.object (entries : List (String × Value)) : Value := .map (entries.map fun (key, v) => (.str key, v))

/-- A block of a script, without the values and blocks that it holds. -/
structure ScriptHead where
  id : Value
  type : Value
  x : Value
  y : Value
  assemble : Value
  copyable : Value
  deletable : Value
  emphasized : Value
  movable : Value
  readOnly : Value
  extensions : List Value
  deriving Repr

/-- The layout of a block of a script. -/
def ScriptHead.layout (head : ScriptHead) (params statements : Value) : Value :=
  .object [("id", head.id), ("type", head.type), ("params", params), ("statements", statements), ("x", head.x),
    ("y", head.y), ("assemble", head.assemble), ("copyable", head.copyable), ("deletable", head.deletable),
    ("emphasized", head.emphasized), ("movable", head.movable), ("readOnly", head.readOnly),
    ("extensions", .list head.extensions)]

/-- A block of a script as a value. -/
def ScriptHead.toRecord (head : ScriptHead) (params statements : Value) : Value :=
  .record .script
    [head.id, head.type, head.x, head.y, head.assemble, head.copyable, head.deletable, head.emphasized, head.movable,
      head.readOnly, .list head.extensions, params, statements]

/-- A scene. -/
structure SceneEntry where
  id : Value
  name : Value
  deriving Repr

/-- The layout of a scene. -/
def SceneEntry.layout (e : SceneEntry) : Value := .object [("id", e.id), ("name", e.name)]

/-- A picture of an object. -/
structure PictureEntry where
  id : Value
  name : Value
  fileurl : Value
  thumbUrl : Value
  imageType : Value
  width : Value
  height : Value
  deriving Repr

/-- The layout of a picture. -/
def PictureEntry.layout (e : PictureEntry) : Value :=
  .object [("id", e.id), ("name", e.name), ("fileurl", e.fileurl), ("thumbUrl", e.thumbUrl),
    ("imageType", e.imageType), ("dimension", .object [("width", e.width), ("height", e.height)])]

/-- A sound of an object. -/
structure SoundEntry where
  id : Value
  name : Value
  fileurl : Value
  duration : Value
  ext : Value
  deriving Repr

/-- The layout of a sound. -/
def SoundEntry.layout (e : SoundEntry) : Value :=
  .object [("id", e.id), ("name", e.name), ("fileurl", e.fileurl), ("duration", e.duration), ("ext", e.ext)]

/-- The looks of an object. The last eight are those of a text box and null for a sprite. -/
structure Entity where
  x : Value
  y : Value
  regX : Value
  regY : Value
  scaleX : Value
  scaleY : Value
  rotation : Value
  direction : Value
  width : Value
  height : Value
  font : Value
  visible : Value
  fontSize : Value
  text : Value
  textAlign : Value
  colour : Value
  bgColor : Value
  underLine : Value
  strike : Value
  lineBreak : Value
  deriving Repr

/-- The font of an object that has none. -/
def Entity.spriteFont : String := "undefinedpx "

/-- The styling of a text box, as it is laid out. -/
def Entity.styling (e : Entity) : List (String × Value) :=
  [("fontSize", e.fontSize), ("text", e.text), ("textAlign", e.textAlign), ("colour", e.colour),
    ("bgColor", e.bgColor), ("underLine", e.underLine), ("strike", e.strike), ("lineBreak", e.lineBreak)]

/-- The layout of the looks of an object: styling that is null is left out. -/
def Entity.layout (e : Entity) : Value :=
  .object <|
    [("x", e.x), ("y", e.y), ("regX", e.regX), ("regY", e.regY), ("scaleX", e.scaleX), ("scaleY", e.scaleY),
      ("rotation", e.rotation), ("direction", e.direction), ("width", e.width), ("height", e.height),
      ("font", e.font), ("visible", e.visible)] ++ e.styling.filter fun (_, v) => !v.isNull

/-- An object, without its looks, pictures, sounds and scripts. -/
structure ObjectHead where
  id : Value
  name : Value
  scene : Value
  lock : Value
  objectType : Value
  rotateMethod : Value
  text : Value
  selectedPicture : Value
  deriving Repr

/-- A field that is left out when it is null. -/
def optional (key : String) (v : Value) : List (String × Value) := if v.isNull then [] else [(key, v)]

/-- The layout of an object. -/
def ObjectHead.layout (head : ObjectHead) (script : String) (pictures sounds : List Value) (entity : Value) : Value :=
  .object <|
    [("id", head.id), ("name", head.name), ("lock", head.lock), ("scene", head.scene), ("script", .str script)] ++
    optional "selectedPictureId" head.selectedPicture ++ optional "text" head.text ++
    [("sprite", .object [("pictures", .list pictures), ("sounds", .list sounds)]), ("entity", entity),
      ("objectType", head.objectType), ("rotateMethod", head.rotateMethod)]

/-- A variable, of the whole project or of one object. -/
structure VariableEntry where
  id : Value
  name : Value
  value : Value
  visible : Value
  x : Value
  y : Value
  object : Value
  isCloud : Value
  isRealTime : Value
  cloudDate : Value
  deriving Repr

/-- The layout of a variable. -/
def VariableEntry.layout (e : VariableEntry) : Value :=
  .object [("id", e.id), ("name", e.name), ("value", e.value), ("visible", e.visible), ("x", e.x), ("y", e.y),
    ("object", e.object), ("isCloud", e.isCloud), ("isRealTime", e.isRealTime), ("cloudDate", e.cloudDate)]

/-- A message. -/
structure MessageEntry where
  id : Value
  name : Value
  deriving Repr

/-- The layout of a message. -/
def MessageEntry.layout (e : MessageEntry) : Value := .object [("id", e.id), ("name", e.name)]

/-- A local variable of a function. -/
structure LocalVariableEntry where
  id : Value
  name : Value
  value : Value
  deriving Repr

/-- The layout of a local variable. -/
def LocalVariableEntry.layout (e : LocalVariableEntry) : Value :=
  .object [("id", e.id), ("name", e.name), ("value", e.value)]

/-- A function, without its local variables and its content. -/
structure FunctionHead where
  id : Value
  type : Value
  useLocalVariables : Value
  deriving Repr

/-- The layout of a function; local variables that are not shown are none. -/
def FunctionHead.layout (head : FunctionHead) (locals : Option (List Value)) (content : String) : Value :=
  .object <|
    [("id", head.id), ("type", head.type), ("useLocalVariables", head.useLocalVariables)] ++
    (match locals with
      | some locals => [("localVariables", .list locals)]
      | none => []) ++
    [("content", .str content)]

/-- What a project says of itself. -/
structure ProjectHead where
  name : Value
  speed : Value
  interface : List (Value × Value)
  expansionBlocks : List Value
  aiUtilizeBlocks : List Value
  hardwareLiteBlocks : List Value
  externalModules : List Value
  externalModulesLite : List Value
  deriving Repr

/-- The layout of a project from the layouts of its collections. -/
def ProjectHead.layout (head : ProjectHead) (scenes objects globals messages functions tables : List Value) : Value :=
  .object
    [("name", head.name), ("speed", head.speed), ("interface", .map head.interface), ("scenes", .list scenes),
      ("objects", .list objects), ("variables", .list globals), ("messages", .list messages),
      ("functions", .list functions), ("tables", .list tables), ("expansionBlocks", .list head.expansionBlocks),
      ("aiUtilizeBlocks", .list head.aiUtilizeBlocks), ("hardwareLiteBlocks", .list head.hardwareLiteBlocks),
      ("externalModules", .list head.externalModules), ("externalModulesLite", .list head.externalModulesLite)]

end SceneTree
