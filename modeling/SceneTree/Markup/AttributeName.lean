import SceneTree.Node.Field
import SceneTree.Text.Lowercase

/-!
# Attribute names

In markup the words of an attribute's name may run together, each but the first with a capital: `scaleX` names the field
`scale_x`. Only the capitals of ASCII part words; the whole is then put in lower case.
-/

namespace SceneTree.Markup

/-- A capital of ASCII. -/
def isCapital (c : Char) : Bool := 'A' ≤ c && c ≤ 'Z'

/-- Text with an underscore before every capital. -/
def parted (text : List Char) : List Char :=
  text.flatMap fun c => if isCapital c then ['_', c] else [c]

/-- The label of the field that an authored name means. -/
def attributeName : List Char → List Char
  | [] => []
  | c :: rest => Text.lower (c :: parted rest)

/-- The field that an authored name means. -/
def attributeField? (name : String) : Option Field := Field.ofLabel? (String.ofList (attributeName name.toList))

end SceneTree.Markup
