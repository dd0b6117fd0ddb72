import SceneTree.Value.Collection

/-!
# Access by position

Positions count from zero, and negative ones back from the end. A slice goes from a start to a stop that it excludes, in
steps; bounds that are left out or lie beyond an end stand for that end.
-/

namespace SceneTree.Access

variable {α : Type}

/-- The position that an integer means in a list of some length, if there is one. -/
def position? (length : Nat) (i : Int) : Option Nat :=
  let i := if i < 0 then i + length else i
  if 0 ≤ i && i < length then some i.toNat else none

/-- The item at a position. -/
def get (items : List α) (i : Int) : Except Fault α :=
  match (position? items.length i).bind fun i => items[i]? with
  | some item => .ok item
  | none => .error .badIndex

/-- The list without the item at a position. -/
def remove (items : List α) (i : Int) : Except Fault (List α) :=
  match position? items.length i with
  | some i => .ok (items.eraseIdx i)
  | none => .error .badIndex

/-- A bound of a slice, counted from the beginning and kept between a least and a greatest value. -/
def bound (length : Nat) (least greatest : Int) (i : Int) : Int :=
  max least (min greatest (if i < 0 then i + length else i))

/-- The positions of a slice that goes on for at most `fuel` items. -/
def stepped (fuel : Nat) (i stop step : Int) : List Nat :=
  match fuel with
  | 0 => []
  | fuel + 1 =>
    if (0 < step && i < stop) || (step < 0 && stop < i) then i.toNat :: stepped fuel (i + step) stop step else []

/-- The items of a slice. -/
def slice (items : List α) (start stop step : Option Int) : Except Fault (List α) :=
  let length := items.length
  let step := step.getD 1
  if step = 0 then .error .badValue
  else
    let (first, last) :=
      if 0 < step then
        ((start.map (bound length 0 length)).getD 0, (stop.map (bound length 0 length)).getD length)
      else
        ((start.map (bound length (-1) (length - 1))).getD (length - 1),
          (stop.map (bound length (-1) (length - 1))).getD (-1))
    .ok ((stepped length first last step).filterMap fun i => items[i]?)

/-- The number of items that are the same as a value. -/
def count (items : List Value) (v : Value) : Nat := items.countP fun item => item == v

/-- Whether an item is the same as a value. -/
def contains (items : List Value) (v : Value) : Bool := items.any fun item => item == v

/-- The position of the first item that is the same as a value, from a start on, which must be a number, and before a
stop if there is one. -/
def indexOf (items : List Value) (v : Value) (start stop : Option Int) : Except Fault Nat := do
  let some start := start | throw .wrongType
  let length := items.length
  let first := (if start < 0 then max 0 (start + length) else start).toNat
  let last := match stop with
    | some i => (if i < 0 then i + length else i).toNat
    | none => length
  match (items.take last).drop first |>.findIdx? fun item => item == v with
  | some i => .ok (first + i)
  | none => .error .badValue

end SceneTree.Access
