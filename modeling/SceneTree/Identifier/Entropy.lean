/-!
# Sources of bytes

Ids are drawn from a source of bytes. A source first gives out bytes that were recorded, as long as a draw finds enough
of them; a draw that does not throws the remaining ones away, and from then on the draws are numbered and each byte of a
draw is given by a function of the draw's number, its length and the byte's position. Every finite run of draws comes
from such a source.
-/

namespace SceneTree

/-- A source of bytes. -/
structure Entropy where
  /-- The bytes that come first. -/
  recorded : List UInt8
  /-- The byte at a position of a numbered draw of some length. -/
  later : (number length position : Nat) → UInt8
  /-- How many numbered draws were made. -/
  drawn : Nat
  /-- How many draws in vain an id may take in any case. -/
  patience : Nat

namespace Entropy

/-- A draw of some bytes, and the source after it. -/
def draw (source : Entropy) (length : Nat) : List UInt8 × Entropy :=
  if length ≤ source.recorded.length then
    (source.recorded.take length, { source with recorded := source.recorded.drop length })
  else
    ((List.range length).map (source.later source.drawn length),
      { source with recorded := [], drawn := source.drawn + 1 })

/-- A draw has the length that was asked for. -/
@[simp] theorem length_draw (source : Entropy) (length : Nat) : (source.draw length).1.length = length := by
  unfold draw
  split
  · simp only [List.length_take]
    omega
  · simp

/-- The digit of a number in base 36 that stands at a position among its last `length` digits. -/
def counterByte (number length position : Nat) : UInt8 :=
  UInt8.ofNat (number / Nat.pow 36 (length - 1 - position) % 36)

/-- The source that counts after its recorded bytes: its numbered draws spell their numbers in base 36. -/
def counting (recorded : List UInt8) : Entropy := ⟨recorded, counterByte, 0, 0⟩

end Entropy

end SceneTree
