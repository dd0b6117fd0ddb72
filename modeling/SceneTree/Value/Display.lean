import SceneTree.Number.Shortest
import SceneTree.Text.Quoted
import SceneTree.Value.Basic

/-!
# How messages show values

A text is shown as it is, and between quotes inside anything else. Collections are shown with their brackets, records
with their names and fields.
-/

namespace SceneTree

/-- The name of a kind of record in messages. -/
def RecordKind.title : RecordKind → String
  | .script => "ScriptNode"
  | .scene => "SceneEntry"
  | .picture => "PictureEntry"
  | .sound => "SoundEntry"
  | .entity => "Entity"
  | .object => "ObjectEntry"
  | .variable => "VariableEntry"
  | .message => "MessageEntry"
  | .localVariable => "LocalVariableEntry"
  | .function => "FunctionEntry"
  | .project => "ProjectDocument"

/-- The names of the fields of a kind of record, in their order. -/
def RecordKind.fieldNames : RecordKind → List String
  | .script =>
    ["id", "type", "x", "y", "assemble", "copyable", "deletable", "emphasized", "movable", "read_only", "extensions",
      "params", "statements"]
  | .scene => ["id", "name"]
  | .picture => ["id", "name", "fileurl", "thumb_url", "image_type", "width", "height"]
  | .sound => ["id", "name", "fileurl", "duration", "ext"]
  | .entity =>
    ["x", "y", "reg_x", "reg_y", "scale_x", "scale_y", "rotation", "direction", "width", "height", "font", "visible",
      "font_size", "text", "text_align", "colour", "bg_color", "under_line", "strike", "line_break"]
  | .object =>
    ["id", "name", "scene", "entity", "lock", "object_type", "rotate_method", "text", "selected_picture_id", "pictures",
      "sounds", "script_blocks"]
  | .variable => ["id", "name", "value", "visible", "x", "y", "object", "is_cloud", "is_real_time", "cloud_date"]
  | .message => ["id", "name"]
  | .localVariable => ["id", "name", "value"]
  | .function => ["id", "type", "use_local_variables", "local_variables", "content_blocks"]
  | .project =>
    ["name", "speed", "interface", "scenes", "objects", "variables", "messages", "functions", "tables",
      "expansion_blocks", "ai_utilize_blocks", "hardware_lite_blocks", "external_modules", "external_modules_lite",
      "populated_by"]

/-- The fields that a record does not show: they hold a whole script, or say who filled a project. -/
def RecordKind.hiddenFields : RecordKind → List String
  | .object => ["script_blocks"]
  | .function => ["content_blocks"]
  | .project => ["populated_by"]
  | _ => []

namespace Value

/-- The name that a value's type goes by in messages. -/
def typeName : Value → String
  | .null => "NoneType"
  | .bool _ => "bool"
  | .int _ => "int"
  | .float _ | .notANumber _ => "float"
  | .str _ => "str"
  | .list _ => "list"
  | .tuple _ => "tuple"
  | .map _ => "dict"
  | .slot _ => "Slot"
  | .lookup .. => "LazyReference"
  | .record kind _ => kind.title

/-- Texts with a comma and a space between them. -/
def commaSeparated (texts : List String) : String := ", ".intercalate texts

/-- A tuple of one item keeps a comma, to be told from brackets around a value. -/
def tupleText : List String → String
  | [text] => "(" ++ text ++ ",)"
  | texts => "(" ++ commaSeparated texts ++ ")"

/-- The fields of a record that are shown, each with its name. -/
def fieldsText (kind : RecordKind) (texts : List String) : String :=
  commaSeparated <| ((kind.fieldNames.zip texts).filter fun (name, _) => !kind.hiddenFields.contains name).map
    fun (name, text) => name ++ "=" ++ text

mutual

/-- A value as it is shown inside other values: a text stands between quotes. -/
def quoted : Value → String
  | .null => "None"
  | .bool b => if b then "True" else "False"
  | .int n => toString n
  | .float x => x.toText
  | .notANumber _ => "nan"
  | .str s => Text.quoted s
  | .list items => "[" ++ commaSeparated (quotedItems items) ++ "]"
  | .tuple items => tupleText (quotedItems items)
  | .map entries => "\x7b" ++ commaSeparated (quotedEntries entries) ++ "\x7d"
  | .slot items => "Slot([" ++ commaSeparated (quotedItems items) ++ "])"
  | .lookup _ kind name _ => "LazyReference(" ++ Text.quoted kind ++ ", " ++ quoted name ++ ")"
  | .record kind fields => kind.title ++ "(" ++ fieldsText kind (quotedItems fields) ++ ")"

/-- The items of a collection, each as it is shown inside another value. -/
def quotedItems : List Value → List String
  | [] => []
  | v :: rest => quoted v :: quotedItems rest

/-- The entries of a map, each key with its value. -/
def quotedEntries : List (Value × Value) → List String
  | [] => []
  | (k, v) :: rest => (quoted k ++ ": " ++ quoted v) :: quotedEntries rest

end

/-- A value as a message shows it: a text is shown as it is. -/
def toText : Value → String
  | .str s => s
  | v => quoted v

end Value

end SceneTree
