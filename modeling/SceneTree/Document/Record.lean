import SceneTree.Document.Encoding

/-!
# Records

Entries of a document as values. A record is built from values for some of its fields; whether these fit together shows
only when it is laid out. Its collections may be any values with items, and its entries any records.
-/

namespace SceneTree

namespace RecordKind

/-- What the fields of a kind of record hold when nothing is given for them; none where something has to be given. -/
def defaults : RecordKind → List (Option Value)
  | .script =>
    [none, none, some (.int 0), some (.int 0), some (.bool true), some (.bool true), some (.int 1), some (.bool false),
      some .null, some .null, some (.list []), some (.slot []), some (.slot [])]
  | .scene | .message => [none, none]
  | .picture => [none, none, none, none, none, none, none]
  | .sound => [none, none, none, none, none]
  | .entity =>
    [some (.int 0), some (.int 0), some (.int 0), some (.int 0), some (.int 1), some (.int 1), some (.int 0),
      some (.int 90), some (.int 0), some (.int 0), some (.str Entity.spriteFont), some (.bool false), some .null,
      some .null, some .null, some .null, some .null, some .null, some .null, some .null]
  | .object =>
    [none, none, none, none, some (.bool false), some (.str "sprite"), some (.str "free"), some .null, some .null,
      some (.slot []), some (.slot []), some (.slot [])]
  | .variable =>
    [none, none, some .null, some (.bool false), some (.int 0), some (.int 0), some .null, some (.bool false),
      some (.bool false), some (.bool false)]
  | .localVariable => [none, none, some .null]
  | .function => [none, some (.str "normal"), some (.bool false), some (.slot []), some (.slot [])]
  | .project =>
    [some .null, some (.int 60), some (.map []), some (.slot []), some (.slot []), some (.slot []), some (.slot []),
      some (.slot []), some (.slot []), some (.list []), some (.list []), some (.list []), some (.list []),
      some (.list []), some (.list [])]

/-- All kinds of record. -/
def all : List RecordKind :=
  [.script, .scene, .picture, .sound, .entity, .object, .variable, .message, .localVariable, .function, .project]

/-- The kind of record of a title. -/
def ofTitle? (title : String) : Option RecordKind := all.find? fun kind => kind.title == title

end RecordKind

namespace Value

/-- The record of a kind with the given values on some fields and defaults on the others. -/
def build (kind : RecordKind) (given : List (String × Value)) : Except Fault Value :=
  if given.any fun (name, _) => !kind.fieldNames.contains name then .error .wrongType
  else do
    let fields ← (kind.fieldNames.zip kind.defaults).mapM fun (name, d) =>
      match given.lookup name, d with
      | some v, _ => .ok v
      | none, some v => .ok v
      | none, none => (.error .wrongType : Except Fault Value)
    .ok (.record kind fields)

/-- The field of a name, which only records have. -/
def field : Value → String → Except Fault Value
  | .record kind fields, name =>
    match (kind.fieldNames.zip fields).lookup name with
    | some v => .ok v
    | none => .error .noField
  | _, _ => .error .noField

/-- Whether a value with items has any. -/
def isFilled : Value → Except Fault Bool
  | .str s => .ok (!s.isEmpty)
  | .list items | .tuple items | .slot items => .ok (!items.isEmpty)
  | .map entries => .ok (!entries.isEmpty)
  | _ => .error .wrongType

mutual

/-- The layout of an entry of a document. Only records have one. -/
def layout : Value → Attempt Readings Value
  | .record .scene [id, name] => pure (SceneEntry.layout ⟨id, name⟩)
  | .record .message [id, name] => pure (MessageEntry.layout ⟨id, name⟩)
  | .record .localVariable [id, name, value] => pure (LocalVariableEntry.layout ⟨id, name, value⟩)
  | .record .sound [id, name, fileurl, duration, ext] => pure (SoundEntry.layout ⟨id, name, fileurl, duration, ext⟩)
  | .record .picture [id, name, fileurl, thumbUrl, imageType, width, height] =>
    pure (PictureEntry.layout ⟨id, name, fileurl, thumbUrl, imageType, width, height⟩)
  | .record .variable [id, name, value, visible, x, y, object, isCloud, isRealTime, cloudDate] =>
    pure (VariableEntry.layout ⟨id, name, value, visible, x, y, object, isCloud, isRealTime, cloudDate⟩)
  | .record .entity
      [x, y, regX, regY, scaleX, scaleY, rotation, direction, width, height, font, visible, fontSize, text, textAlign,
        colour, bgColor, underLine, strike, lineBreak] =>
    pure (Entity.layout
      ⟨x, y, regX, regY, scaleX, scaleY, rotation, direction, width, height, font, visible, fontSize, text, textAlign,
        colour, bgColor, underLine, strike, lineBreak⟩)
  | .record .object
      [id, name, scene, entity, lock, objectType, rotateMethod, text, selectedPicture, pictures, sounds, blocks] => do
    let script ← blocks.dump
    let pictures ← layoutItems pictures
    let sounds ← layoutItems sounds
    let entity ← layout entity
    pure (ObjectHead.layout ⟨id, name, scene, lock, objectType, rotateMethod, text, selectedPicture⟩ script pictures
      sounds entity)
  | .record .function [id, type, useLocalVariables, locals, content] => do
    let shown ← if useLocalVariables.truthy then pure true else (locals.isFilled : Except Fault Bool)
    let locals ← if shown then do pure (some (← layoutItems locals)) else pure none
    let content ← content.dump
    pure (FunctionHead.layout ⟨id, type, useLocalVariables⟩ locals content)
  | .record .project
      [name, speed, interface, scenes, objects, globals, messages, functions, tables, expansionBlocks,
        aiUtilizeBlocks, hardwareLiteBlocks, externalModules, externalModulesLite, _] => do
    let interface ← (interface.toEntries : Except Fault Entries)
    let scenes ← layoutItems scenes
    let objects ← layoutItems objects
    let globals ← layoutItems globals
    let messages ← layoutItems messages
    let functions ← layoutItems functions
    let tables ← encodeItems (← (tables.items : Except Fault (List Value)))
    let expansionBlocks ← (expansionBlocks.items : Except Fault (List Value))
    let aiUtilizeBlocks ← (aiUtilizeBlocks.items : Except Fault (List Value))
    let hardwareLiteBlocks ← (hardwareLiteBlocks.items : Except Fault (List Value))
    let externalModules ← (externalModules.items : Except Fault (List Value))
    let externalModulesLite ← (externalModulesLite.items : Except Fault (List Value))
    pure (ProjectHead.layout
      ⟨name, speed, interface, expansionBlocks, aiUtilizeBlocks, hardwareLiteBlocks, externalModules,
        externalModulesLite⟩ scenes objects globals messages functions tables)
  | .record .script fields => encode (.record .script fields)
  | _ => Attempt.fail .noField

/-- The layouts of the entries in a collection. What is inside a text or a map is no entry. -/
def layoutItems : Value → Attempt Readings (List Value)
  | .list items | .tuple items | .slot items => layoutAll items
  | .str s => if s.isEmpty then pure [] else Attempt.fail .noField
  | .map entries => if entries.isEmpty then pure [] else Attempt.fail .noField
  | _ => Attempt.fail .wrongType

/-- The layouts of some entries. -/
def layoutAll : List Value → Attempt Readings (List Value)
  | [] => pure []
  | v :: rest => do
    let v ← layout v
    pure (v :: (← layoutAll rest))

end

/-- Every picture that an object of a project selects is one of the object's own. -/
def checkSelectedPictures (project : Value) : Except Fault Unit := do
  for object in ← (← project.field "objects").items do
    let selected ← object.field "selected_picture_id"
    if !selected.isNull then
      let pictures ← (← object.field "pictures").items
      let found ← pictures.anyM fun picture => do return (← picture.field "id").equals selected
      if !found then throw (.foreignPicture (← object.field "name") selected)

/-- Whether a project says that it was filled. -/
def isPopulated (project : Value) : Except Fault Bool := do
  return (← project.field "populated_by").truthy

end Value

end SceneTree
