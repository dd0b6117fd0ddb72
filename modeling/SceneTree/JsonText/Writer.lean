import SceneTree.Fault
import SceneTree.JsonText.Layout
import SceneTree.JsonText.Quoting
import SceneTree.Number.Numeral

/-!
# Writing values as JSON

Null, truth values, numbers, texts, lists, tuples and maps can be written; a tuple is written like a list. A key that is
no text is written as the text of its value, so that two keys of a map may read the same. What is infinite or no number
is written as a word. An integer that has more digits than can be read back is not written.
-/

namespace SceneTree.JsonText

/-- A floating-point number. -/
def number : Binary64 → List Char
  | .infinite negative => if negative then "-Infinity".toList else "Infinity".toList
  | x => x.toText.toList

/-- Whether an integer has no more digits than can be read back. -/
@[irreducible] def isShortInteger (n : Int) : Bool := n.natAbs < Nat.pow 10 Numeral.digitLimit

/-- A value without items, as it is written; every other value is of the wrong type. -/
def plain : Value → Except Fault (List Char)
  | .null => .ok "null".toList
  | .bool b => .ok (if b then "true".toList else "false".toList)
  | .int n => if isShortInteger n then .ok (toString n).toList else .error .badValue
  | .float x => .ok (number x)
  | .notANumber _ => .ok "NaN".toList
  | _ => .error .wrongType

/-- The text of a key. -/
def keyText : Value → Except Fault (List Char)
  | .str s => .ok s.toList
  | v => plain v

mutual

/-- A value at a level. -/
def write (layout : Layout) (level : Nat) : Value → Except Fault (List Char)
  | .str s => .ok (quoted s.toList)
  | .list [] | .tuple [] => .ok ['[', ']']
  | .list items | .tuple items => do
    let inner ← writeItems layout (level + 1) items
    .ok ('[' :: (layout.opening (level + 1) ++ inner ++ layout.closing level ++ [']']))
  | .map [] => .ok ['\x7b', '\x7d']
  | .map entries => do
    let inner ← writeEntries layout (level + 1) entries
    .ok ('\x7b' :: (layout.opening (level + 1) ++ inner ++ layout.closing level ++ ['\x7d']))
  | v => plain v

/-- The items of an array at a level. -/
def writeItems (layout : Layout) (level : Nat) : List Value → Except Fault (List Char)
  | [] => .ok []
  | [v] => write layout level v
  | v :: rest => do
    let head ← write layout level v
    let tail ← writeItems layout level rest
    .ok (head ++ layout.separator level ++ tail)

/-- The entries of an object at a level. -/
def writeEntries (layout : Layout) (level : Nat) : List (Value × Value) → Except Fault (List Char)
  | [] => .ok []
  | (k, v) :: rest => do
    let key ← keyText k
    let value ← write layout level v
    let tail ← writeEntries layout level rest
    let gap := if rest.isEmpty then [] else layout.separator level
    .ok (quoted key ++ layout.colon ++ value ++ gap ++ tail)

end

/-- A value as JSON, unless the layout is too wide. -/
def text (layout : Layout) (v : Value) : Except Fault String :=
  if !layout.isShort then .error .tooWide
  else if !layout.isHoldable then .error .outOfMemory
  else do
    let chars ← write layout 0 v
    .ok (String.ofList chars)

end SceneTree.JsonText
