import SceneTree.Value.Basic

/-!
# Equality of values

Numbers are compared by their exact value, whatever their kind, and the truth values count as one and zero. Lists and
slots are equal when their items are; a tuple equals only tuples. Maps are equal when they give equal values to the same
keys, in any order. What is no number equals nothing, but a collection that holds it equals itself.
-/

namespace SceneTree.Value

/-- Equality of two values that are numbers or truth values. -/
def sameNumber : Value → Value → Bool
  | .bool a, b => sameInt (if a then 1 else 0) b
  | .int a, b => sameInt a b
  | .float x, .float y => x.equals y
  | .float x, .int b => x.equalsInt b
  | .float x, .bool b => x.equalsInt (if b then 1 else 0)
  | _, _ => false
where
  sameInt (a : Int) : Value → Bool
    | .bool b => a == if b then 1 else 0
    | .int b => a == b
    | .float y => y.equalsInt a
    | _ => false

mutual

/-- Two values are the same entry of a collection: they are equal, or one and the same. -/
def same : Value → Value → Bool
  | .null, .null => true
  | .str s, .str t => s == t
  | .notANumber i, .notANumber j => i == j
  | .lookup i .., .lookup j .. => i == j
  | .list xs, .list ys => sameItems xs ys
  | .list xs, .slot ys => sameItems xs ys
  | .slot xs, .list ys => sameItems xs ys
  | .slot xs, .slot ys => sameItems xs ys
  | .tuple xs, .tuple ys => sameItems xs ys
  | .map xs, .map ys => xs.length == ys.length && sameEntries xs ys
  | .record k xs, .record k' ys => k == k' && sameFields k xs ys
  | a, b => sameNumber a b

/-- Two lists of values are the same, item by item. -/
def sameItems : List Value → List Value → Bool
  | [], [] => true
  | x :: xs, y :: ys => same x y && sameItems xs ys
  | _, _ => false

/-- The fields of two records of one kind are the same; of a project, all but the last, which says who filled it. -/
def sameFields (kind : RecordKind) : List Value → List Value → Bool
  | [], [] => true
  | x :: xs, y :: ys => (kind == .project && xs.isEmpty || same x y) && sameFields kind xs ys
  | _, _ => false

/-- Every entry of the first map is one of the second. -/
def sameEntries : List (Value × Value) → List (Value × Value) → Bool
  | [], _ => true
  | (k, v) :: rest, ys => (ys.any fun (k', v') => same k k' && same v v') && sameEntries rest ys

end

/-- Two values are equal. -/
def equals : Value → Value → Bool
  | .notANumber _, _ => false
  | a, b => same a b

/-- In a collection, values count as equal when they are the same entry. -/
instance : BEq Value := ⟨same⟩

end SceneTree.Value
