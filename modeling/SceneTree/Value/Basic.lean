import SceneTree.Number.Binary64

/-!
# Values

The values that attributes, names, ids and script parameters may have. Nothing restricts which kind of value stands in
which place; a place that can do nothing with a value says so when it meets it.
-/

namespace SceneTree

/-- The kinds of record that a project document is made of. -/
inductive RecordKind where
  | script | scene | picture | sound | entity | object | variable | message | localVariable | function | project
  deriving DecidableEq, Repr

/-- Where a lookup comes from: it was given as a value, or a parameter of a script made it. -/
inductive Origin where
  | given (label : Nat)
  | param (index : Nat)
  deriving DecidableEq, Repr

/-- A value.

What is no number carries a label, and a lookup its origin: they are found again where they were put, although the first
equals nothing and the second only itself. A slot holds the values that a place of a script collected. A lookup stands
for the id of the first of its candidates, pairs of an id and a name, that has the name. A record has the fields of its
kind, in their order. -/
inductive Value where
  | null
  | bool (b : Bool)
  | int (n : Int)
  | float (x : Binary64)
  | notANumber (label : Nat)
  | str (s : String)
  | list (items : List Value)
  | tuple (items : List Value)
  | map (entries : List (Value × Value))
  | slot (items : List Value)
  | lookup (origin : Origin) (kind : String) (name : Value) (candidates : List (Value × Value))
  | record (kind : RecordKind) (fields : List Value)
  deriving Repr, Inhabited

namespace Value

/-- The null value is the only one that stands for the absence of a value. -/
def isNull : Value → Bool
  | .null => true
  | _ => false

/-- Whether a value counts as true: it is not null, false, zero or empty. -/
def truthy : Value → Bool
  | .null => false
  | .bool b => b
  | .int n => n != 0
  | .float (.finite _ mantissa _) => mantissa != 0
  | .str s => !s.isEmpty
  | .list items => !items.isEmpty
  | .tuple items => !items.isEmpty
  | .map entries => !entries.isEmpty
  | .slot items => !items.isEmpty
  | _ => true

mutual

/-- Whether a value can be a key or an id: it is none of the values that may change, and holds none. -/
def isKey : Value → Bool
  | .list _ | .map _ | .slot _ | .record _ _ => false
  | .tuple items => areKeys items
  | _ => true

/-- Whether all of some values can be keys. -/
def areKeys : List Value → Bool
  | [] => true
  | v :: rest => isKey v && areKeys rest

end

end Value

end SceneTree
