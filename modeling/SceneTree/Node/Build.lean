import SceneTree.Node.Basic
import SceneTree.Node.Extension
import SceneTree.Number.Numeral
import SceneTree.Value.Collection

/-!
# Building nodes

A node is built from the values given for some of its fields. The other fields get their defaults, and some of these
depend on what was given: the centre of an object on its size, the styling of a text box on its type, the image type of
a picture and the extension of a sound on the address of the file.
-/

namespace SceneTree

/-- The object types. -/
def objectTypes : List String := ["sprite", "textBox"]

/-- The ways in which an object turns. -/
def rotateMethods : List String := ["free", "vertical", "none"]

/-- The function types. -/
def functionTypes : List String := ["normal", "value"]

/-- Whether a value is one of some texts. -/
def Value.isOneOf (v : Value) (texts : List String) : Bool := texts.any fun text => v.equals (.str text)

/-- Whether a value is a text. -/
def Value.isText (v : Value) (text : String) : Bool := v.equals (.str text)

namespace Node

/-- The text of a text box that has none. -/
def defaultText : String := "글상자"

/-- The font size of a text box that has none. -/
def defaultFontSize : Value := .int 20

/-- The font family of text boxes. -/
def fontFamily : String := "Nanum Gothic"

/-- A font size as the font names it: as an integer if it is one, and otherwise as it is. -/
def fontSizeText : Value → Except Fault String
  | .int n => if (Binary64.ofQuotient? n 1).isSome then .ok (toString n) else .error .tooLarge
  | .bool b => .ok (if b then "1" else "0")
  | .float x =>
    match x.toInt? with
    | some n => .ok (toString n)
    | none => .ok x.toText
  | .notANumber label => .ok (Value.toText (.notANumber label))
  | .str s =>
    match Numeral.readDecimal? s.toList with
    | none => .error (.malformedDecimal s)
    | some .notANumber => .ok s
    | some (.number x) =>
      if x.toInt?.isNone then .ok s
      else match Numeral.readInteger s.toList with
        | .ok n => .ok (toString n)
        | .error .malformed => .error (.malformedInteger s)
        | .error (.tooManyDigits count) => .error (.tooManyDigits count)
  | v => .error (.notReadable v.typeName)

/-- The styling of a text box where none is given. -/
def withTextBoxDefaults (node : Node) : Except Fault Node := do
  let node := (node.setDefault .text (.str defaultText)).setDefault .fontSize defaultFontSize
  let node ←
    if (node.get .font).isNull then do
      let size ← fontSizeText (node.get .fontSize)
      pure (node.set .font (.str (size ++ "px " ++ fontFamily)))
    else pure node
  pure <| ((((((node.setDefault .colour (.str "#000000")).setDefault .textAlign (.int 0)).setDefault .lineBreak
    (.bool false)).setDefault .bgColor (.str "#ffffff")).setDefault .underLine (.bool false)).setDefault .strike
    (.bool false))

/-- A field that holds nothing becomes half of another one. -/
def withHalf (node : Node) (field whole : Field) : Except Fault Node :=
  if (node.get field).isNull then do pure (node.set field (← (node.get whole).half)) else pure node

/-- Objects: the type and the rotate method are known ones, and the centre is the middle. -/
def completeObject (node : Node) : Except Fault Node := do
  if !(node.get .objectType).isOneOf objectTypes then
    throw (.unknownObjectType (node.get .objectType) (node.get .name))
  if !(node.get .rotateMethod).isOneOf rotateMethods then
    throw (.unknownRotateMethod (node.get .rotateMethod) (node.get .name))
  let node ← node.withHalf .regX .width
  let node ← node.withHalf .regY .height
  if (node.get .objectType).isText "textBox" then node.withTextBoxDefaults else pure node

/-- The extension of an address, which must be a text. -/
def extensionOf : Value → Except Fault (Option String)
  | .str address => .ok ((extension? address.toList).map String.ofList)
  | v => .error (.notAddress v.typeName)

/-- Pictures: the thumbnail is the picture itself, and the image type follows the address. -/
def completePicture (node : Node) : Except Fault Node := do
  let node := node.setDefault .thumbUrl (node.get .fileurl)
  if (node.get .imageType).isNull then do
    let found ← extensionOf (node.get .fileurl)
    pure (node.set .imageType (.str (found.getD "png")))
  else pure node

/-- Sounds: the extension follows the address. -/
def completeSound (node : Node) : Except Fault Node :=
  if (node.get .ext).isNull then do
    let found ← extensionOf (node.get .fileurl)
    pure (node.set .ext (.str (match found with
      | some found => "." ++ found
      | none => ".mp3")))
  else pure node

/-- Functions: the type is a known one. -/
def completeFunction (node : Node) : Except Fault Node :=
  if (node.get .type).isOneOf functionTypes then pure node
  else throw (.unknownFunctionType (node.get .type))

/-- The checks and dependent defaults of a node whose fields hold what was given or a fixed default. -/
def complete (node : Node) : Except Fault Node :=
  match node.kind with
  | .object | .sprite | .textBox => node.completeObject
  | .picture => node.completePicture
  | .sound => node.completeSound
  | .function => node.completeFunction
  | _ => pure node

/-- The node of a kind that has the given values on some fields, one value for each, and defaults on the others. -/
def build (kind : Kind) (given : List (Field × Value)) : Except Fault Node :=
  if given.any fun (field, _) => !kind.hasField field then .error .wrongType
  else
    match kind.requiredFields.find? fun field => (given.lookup field).isNone with
    | some field => .error (.missingAttribute kind.title field.label)
    | none => complete ⟨kind, fun field => (given.lookup field).getD (kind.defaultOf field)⟩

end Node

end SceneTree
