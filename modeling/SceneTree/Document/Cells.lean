/-!
# Cells

Things that change while they are known by number: each gets the next number when it is created, and keeps it.
-/

namespace SceneTree

/-- Numbered things, in the order of their creation. -/
structure Cells (α : Type) where
  contents : Array α
  deriving Repr

namespace Cells

variable {α : Type}

/-- No things. -/
def empty : Cells α := ⟨#[]⟩

instance : Inhabited (Cells α) := ⟨empty⟩

/-- How many things there are, which is the number of the next one. -/
def size (cells : Cells α) : Nat := cells.contents.size

/-- The thing of a number. -/
def get? (cells : Cells α) (i : Nat) : Option α := cells.contents[i]?

/-- The things with a new one. -/
def add (cells : Cells α) (a : α) : Cells α := ⟨cells.contents.push a⟩

/-- The things with one of them changed. -/
def modify (cells : Cells α) (i : Nat) (f : α → α) : Cells α := ⟨cells.contents.modify i f⟩

@[simp] theorem size_empty : (empty : Cells α).size = 0 := rfl

@[simp] theorem size_add (cells : Cells α) (a : α) : (cells.add a).size = cells.size + 1 := by simp [size, add]

@[simp] theorem size_modify (cells : Cells α) (i : Nat) (f : α → α) : (cells.modify i f).size = cells.size := by
  simp [size, modify]

@[simp] theorem get?_add_self (cells : Cells α) (a : α) : (cells.add a).get? cells.size = some a := by
  simp [get?, add, size]

theorem get?_add_of_ne (cells : Cells α) (a : α) {i : Nat} (h : i ≠ cells.size) :
    (cells.add a).get? i = cells.get? i := by
  simp only [get?, add, size] at *
  rw [Array.getElem?_push]
  simp [h]

@[simp] theorem get?_modify_self (cells : Cells α) (i : Nat) (f : α → α) :
    (cells.modify i f).get? i = (cells.get? i).map f := by
  simp [get?, modify, Array.getElem?_modify]

theorem get?_modify_of_ne (cells : Cells α) {i j : Nat} (f : α → α) (h : j ≠ i) :
    (cells.modify i f).get? j = cells.get? j := by
  simp [get?, modify, Array.getElem?_modify, Ne.symm h]

end Cells

end SceneTree
