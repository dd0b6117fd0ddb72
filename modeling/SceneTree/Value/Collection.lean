import SceneTree.Fault
import SceneTree.Value.Equality

/-!
# Values as collections

Maps keep their entries in the order in which the keys first came. A value that has items can be taken for a list of
them, and one whose items are pairs for a map.
-/

namespace SceneTree

/-- The entries of a map. -/
abbrev Entries := List (Value × Value)

namespace Entries

/-- Gives a value to a key: a key that is there already keeps its place, a new one goes to the end. -/
def put : Entries → Value → Value → Entries
  | [], key, value => [(key, value)]
  | (k, v) :: rest, key, value => if k.same key then (k, value) :: rest else (k, v) :: put rest key value

/-- The value of a key. -/
def get? (entries : Entries) (key : Value) : Option Value :=
  (entries.find? fun (k, _) => k.same key).map (·.2)

/-- The map of some pairs, each put after those before it. -/
def ofPairs (pairs : List (Value × Value)) : Entries :=
  pairs.foldl (fun entries (key, value) => entries.put key value) []

end Entries

namespace Value

/-- The items of a value: those of a collection, the keys of a map, the characters of a text. -/
def items : Value → Except Fault (List Value)
  | .str s => .ok (s.toList.map fun c => .str (String.singleton c))
  | .list items => .ok items
  | .tuple items => .ok items
  | .slot items => .ok items
  | .map entries => .ok (entries.map (·.1))
  | _ => .error .wrongType

/-- A value with two items as an entry of a map. -/
def toPair (v : Value) : Except Fault (Value × Value) := do
  match ← v.items with
  | [key, value] => if key.isKey then .ok (key, value) else .error .wrongType
  | _ => .error .badValue

/-- A value as a map: a map is one, and any other value with items is one if these are pairs. -/
def toEntries : Value → Except Fault Entries
  | .map entries => .ok entries
  | v => do
    let pairs ← (← v.items).mapM toPair
    .ok (Entries.ofPairs pairs)

/-- Half of a value, which must be a number or a truth value. -/
def half : Value → Except Fault Value
  | .int n => halfOf n
  | .bool b => halfOf (if b then 1 else 0)
  | .float x => .ok (.float x.half)
  | .notANumber label => .ok (.notANumber label)
  | v => .error (.notDivisible v.typeName)
where
  halfOf (n : Int) : Except Fault Value :=
    match Binary64.ofQuotient? n 2 with
    | some x => .ok (.float x)
    | none => .error .tooLarge

end Value

end SceneTree
