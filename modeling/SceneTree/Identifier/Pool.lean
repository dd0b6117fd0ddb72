import SceneTree.Identifier.Entropy
import SceneTree.Value.Collection

/-!
# Ids

A pool remembers the ids that it gave out or that were reserved in it. A new id is drawn again until it is none of
these.
-/

namespace SceneTree

/-- The ids that are in use, in the order in which they came. -/
structure IdPool where
  issued : List Value
  deriving Repr, Inhabited

namespace IdPool

/-- The pool in which no id is in use. -/
def empty : IdPool := ⟨[]⟩

/-- The characters of ids. -/
def alphabet : List Char := "0123456789abcdefghijklmnopqrstuvwxyz".toList

/-- The length of an id where no other is asked for. -/
def defaultLength : Int := 4

/-- The character of a byte. -/
def letter (b : UInt8) : Char := alphabet.getD (b.toNat % 36) '0'

/-- The id that some bytes spell. -/
def spell (bytes : List UInt8) : String := String.ofList (bytes.map letter)

/-- Whether an id is in use. -/
def contains (pool : IdPool) (id : Value) : Bool := pool.issued.any fun v => v == id

/-- Puts an id in use; one that is in use already stays as it is. -/
def reserve (pool : IdPool) (id : Value) : IdPool := if pool.contains id then pool else ⟨pool.issued ++ [id]⟩

/-- The first of the next `fuel` draws that spells an id not in use, and the source after it. -/
def freshDraw (pool : IdPool) (length : Nat) : (fuel : Nat) → Entropy → Option String × Entropy
  | 0, source => (none, source)
  | fuel + 1, source =>
    let (bytes, source) := source.draw length
    let id := spell bytes
    if pool.contains (.str id) then freshDraw pool length fuel source else (some id, source)

/-- The number of draws after which no further one is tried. It is enough for a source that counts: at most the recorded
bytes and the ids in use can stand in the way. -/
def attempts (pool : IdPool) (source : Entropy) : Nat :=
  source.patience + source.recorded.length + pool.issued.length + 1

/-- A new id of a length, with the pool in which it is in use and the source after the draws. -/
def next (pool : IdPool) (source : Entropy) (length : Int) : Except Fault String × IdPool × Entropy :=
  if length ≤ 0 then (.error (.idLength length), pool, source)
  else
    match pool.freshDraw length.toNat (pool.attempts source) source with
    | (some id, source) => (.ok id, pool.reserve (.str id), source)
    | (none, source) => (.error .noFreshId, pool, source)

/-- An id is in use after it was reserved. -/
theorem contains_reserve (pool : IdPool) (id : Value) (h : (id == id) = true) :
    (pool.reserve id).contains id = true := by
  by_cases hc : pool.contains id = true
  · simp [reserve, hc]
  · simp only [reserve, hc, Bool.false_eq_true, if_false]
    simp [contains, h]

end IdPool

end SceneTree
