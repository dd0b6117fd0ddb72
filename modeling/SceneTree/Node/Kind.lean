import SceneTree.Node.Field
import SceneTree.Value.Basic

/-!
# Kinds of node

The kinds of node that a tree is made of, the words that introduce them in markup, and the fields of each kind with
their defaults.
-/

namespace SceneTree

/-- A kind of node. A plain `node` and a plain `namedParam` stand for no kind in particular and introduce nothing in
markup. -/
inductive Kind where
  | node | fragment | project | scene | object | sprite | textBox | picture | sound | variable | message | function
  | localVariable | table | statement | script | param | namedParam | variableParam | objectParam | pictureParam
  | soundParam
  deriving DecidableEq, Repr

/-- What a field holds when nothing is given for it. -/
inductive FieldDefault where
  | required
  | value (v : Value)

namespace Kind

/-- The name of a kind in messages. -/
def name : Kind → String
  | .node => "Node"
  | .fragment => "Fragment"
  | .project => "Project"
  | .scene => "Scene"
  | .object => "Object"
  | .sprite => "SpriteObject"
  | .textBox => "TextBoxObject"
  | .picture => "Picture"
  | .sound => "Sound"
  | .variable => "Variable"
  | .message => "Message"
  | .function => "Function"
  | .localVariable => "LocalVariable"
  | .table => "Table"
  | .statement => "Statement"
  | .script => "Script"
  | .param => "Param"
  | .namedParam => "NamedParam"
  | .variableParam => "VariableParam"
  | .objectParam => "ObjectParam"
  | .pictureParam => "PictureParam"
  | .soundParam => "SoundParam"

/-- The name of what a kind of parameter names. -/
def targetName : Kind → String
  | .variableParam => "Variable"
  | .objectParam => "Object"
  | .pictureParam => "Picture"
  | .soundParam => "Sound"
  | _ => ""

/-- The name of a kind where its construction is reported. -/
def title : Kind → String
  | .object => "EntryObject"
  | kind => kind.name

/-- The words that introduce nodes in markup, in small letters, with the kinds they stand for. -/
def words : List (String × Kind) :=
  [("fragment", .fragment), ("project", .project), ("scene", .scene), ("object", .object), ("entryobject", .object),
    ("sprite", .sprite), ("spriteobject", .sprite), ("textbox", .textBox), ("textboxobject", .textBox),
    ("picture", .picture), ("sound", .sound), ("variable", .variable), ("message", .message), ("function", .function),
    ("localvariable", .localVariable), ("table", .table), ("statement", .statement), ("script", .script),
    ("param", .param), ("variableparam", .variableParam), ("objectparam", .objectParam),
    ("pictureparam", .pictureParam), ("soundparam", .soundParam)]

/-- The kind that a word in small letters introduces. -/
def ofWord? (word : String) : Option Kind := words.lookup word

/-- The three kinds of object. -/
def isObject : Kind → Bool
  | .object | .sprite | .textBox => true
  | _ => false

/-- The kinds of parameter that stand for a name. -/
def isNamedParam : Kind → Bool
  | .namedParam | .variableParam | .objectParam | .pictureParam | .soundParam => true
  | _ => false

/-- The fields that all objects have; the kinds differ in the object type that they start from. -/
def objectFields (objectType : String) : List (Field × FieldDefault) :=
  [(.name, .required), (.id, .value .null), (.objectType, .value (.str objectType)), (.lock, .value (.bool false)),
    (.rotateMethod, .value (.str "free")), (.x, .value (.int 0)), (.y, .value (.int 0)), (.regX, .value .null),
    (.regY, .value .null), (.scaleX, .value (.int 1)), (.scaleY, .value (.int 1)), (.rotation, .value (.int 0)),
    (.direction, .value (.int 90)), (.width, .value (.int 0)), (.height, .value (.int 0)),
    (.visible, .value (.bool false)), (.selected, .value (.bool false)), (.font, .value .null), (.text, .value .null),
    (.fontSize, .value .null), (.colour, .value .null), (.textAlign, .value .null), (.lineBreak, .value .null),
    (.bgColor, .value .null), (.underLine, .value .null), (.strike, .value .null)]

/-- The fields of a kind in their order, with their defaults. -/
def fields : Kind → List (Field × FieldDefault)
  | .node | .fragment | .statement => []
  | .project =>
    [(.name, .value .null), (.speed, .value (.int 60)), (.interface, .value (.map [])),
      (.expansionBlocks, .value (.list [])), (.aiUtilizeBlocks, .value (.list [])),
      (.hardwareLiteBlocks, .value (.list [])), (.externalModules, .value (.list [])),
      (.externalModulesLite, .value (.list []))]
  | .scene | .message => [(.name, .required), (.id, .value .null)]
  | .object | .sprite => objectFields "sprite"
  | .textBox => objectFields "textBox"
  | .picture =>
    [(.name, .required), (.fileurl, .value (.str "")), (.id, .value .null), (.thumbUrl, .value .null),
      (.imageType, .value .null), (.width, .value (.int 0)), (.height, .value (.int 0)),
      (.selected, .value (.bool false))]
  | .sound =>
    [(.name, .required), (.fileurl, .value (.str "")), (.duration, .value (.int 0)), (.id, .value .null),
      (.ext, .value .null)]
  | .variable =>
    [(.name, .required), (.value, .value .null), (.id, .value .null), (.visible, .value (.bool false)),
      (.x, .value (.int 0)), (.y, .value (.int 0)), (.isCloud, .value (.bool false)),
      (.isRealTime, .value (.bool false)), (.cloudDate, .value (.bool false))]
  | .function =>
    [(.id, .value .null), (.type, .value (.str "normal")), (.useLocalVariables, .value (.bool false))]
  | .localVariable => [(.name, .required), (.value, .value .null)]
  | .table => [(.data, .value (.map []))]
  | .script =>
    [(.type, .required), (.x, .value (.int 0)), (.y, .value (.int 0)), (.assemble, .value (.bool true)),
      (.copyable, .value (.bool true)), (.deletable, .value (.int 1)), (.emphasized, .value (.bool false)),
      (.movable, .value .null), (.readOnly, .value .null), (.extensions, .value (.list []))]
  | .param => [(.value, .value .null)]
  | .namedParam | .variableParam | .objectParam | .pictureParam | .soundParam => [(.name, .required)]

/-- Whether a kind has a field. -/
def hasField (kind : Kind) (field : Field) : Bool := kind.fields.any fun (f, _) => f == field

/-- What a field of a kind holds when nothing is given for it; null for a field that the kind does not have. -/
def defaultOf (kind : Kind) (field : Field) : Value :=
  match field, kind.fields.lookup field with
  | .kindName, _ => .str kind.name
  | .targetName, _ => .str kind.targetName
  | _, some (.value v) => v
  | _, _ => .null

/-- The fields of a kind that have to be given. -/
def requiredFields (kind : Kind) : List Field :=
  kind.fields.filterMap fun (field, d) => match d with
    | .required => some field
    | .value _ => none

end Kind

end SceneTree
