/-!
# Layouts of JSON

Between the items of an array or object stands a comma, between a key and its value a colon. What else stands there is a
matter of layout: nothing, a space after each of them, or line breaks and indentation. An empty array or object is
written without anything inside.
-/

namespace SceneTree.JsonText

/-- A layout. In an indented one each item has a line of its own, indented by so many spaces for each level; a negative
number indents by none. -/
inductive Layout where
  | compact
  | spaced
  | indented (width : Int)
  deriving DecidableEq, Repr

namespace Layout

/-- A new line at a level. -/
def newLine (width : Int) (level : Nat) : List Char := '\n' :: List.replicate (width.toNat * level) ' '

/-- What stands before an item at a level. -/
def opening (layout : Layout) (level : Nat) : List Char :=
  match layout with
  | .indented width => newLine width level
  | _ => []

/-- What stands between two items at a level. -/
def separator (layout : Layout) (level : Nat) : List Char :=
  match layout with
  | .compact => [',']
  | .spaced => [',', ' ']
  | .indented width => ',' :: newLine width level

/-- What stands after the items of an array or object at a level. -/
def closing (layout : Layout) (level : Nat) : List Char :=
  match layout with
  | .indented width => newLine width level
  | _ => []

/-- What stands between a key and its value. -/
def colon : Layout → List Char
  | .compact => [':']
  | _ => [':', ' ']

/-- The layout for an indentation: one line with spaces where none is given. -/
def ofIndent : Option Int → Layout
  | none => spaced
  | some width => indented width

/-- Whether the indentation of a layout has at most 64 bits. -/
def isShort : Layout → Bool
  | .indented width => -9223372036854775808 ≤ width && width ≤ 9223372036854775807
  | _ => true

/-- Whether the indentation of a layout fits into memory. -/
def isHoldable : Layout → Bool
  | .indented width => width < 4294967296
  | _ => true

end Layout

end SceneTree.JsonText
