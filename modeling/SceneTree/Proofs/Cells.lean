import SceneTree.Document.Cells

/-!
# Things that are numbered

What holds of all numbered things, and what stays of them when some are added or changed.
-/

namespace SceneTree

namespace Cells

variable {α β : Type} {cells cells' cells'' : Cells α} {g : α → β}

/-- Every thing has a property. -/
def All (P : α → Prop) (cells : Cells α) : Prop := ∀ i a, cells.get? i = some a → P a

theorem All.empty (P : α → Prop) : (Cells.empty : Cells α).All P := by
  intro i a h
  cases h

theorem All.imp {P Q : α → Prop} (h : cells.All P) (hPQ : ∀ a, P a → Q a) : cells.All Q :=
  fun i a ha => hPQ a (h i a ha)

theorem All.add {P : α → Prop} (h : cells.All P) {a : α} (ha : P a) : (cells.add a).All P := by
  intro i b hb
  by_cases hi : i = cells.size
  · subst hi
    rw [get?_add_self] at hb
    cases hb
    exact ha
  · rw [get?_add_of_ne cells a hi] at hb
    exact h i b hb

theorem All.modify {P Q : α → Prop} (h : cells.All P) (i : Nat) {f : α → α} (hPQ : ∀ a, P a → Q a)
    (hf : ∀ a, P a → Q (f a)) : (cells.modify i f).All Q := by
  intro j b hb
  by_cases hj : j = i
  · subst hj
    rw [get?_modify_self, Option.map_eq_some_iff] at hb
    obtain ⟨a, ha, rfl⟩ := hb
    exact hf a (h j a ha)
  · rw [get?_modify_of_ne cells f hj] at hb
    exact hPQ b (h j b hb)

/-- A change of one thing that has the property for it. -/
theorem All.modify_at {P : α → Prop} (h : cells.All P) {i : Nat} {f : α → α}
    (hf : ∀ a, cells.get? i = some a → P (f a)) : (cells.modify i f).All P := by
  intro j b hb
  by_cases hj : j = i
  · subst hj
    rw [get?_modify_self, Option.map_eq_some_iff] at hb
    obtain ⟨a, ha, rfl⟩ := hb
    exact hf a ha
  · rw [get?_modify_of_ne cells f hj] at hb
    exact h j b hb

/-- The numbers of things are below their count. -/
theorem isSome_get?_iff {i : Nat} : (cells.get? i).isSome = true ↔ i < cells.size := by simp [get?, size]

/-- A change that leaves a part of every thing alone. -/
theorem map_get?_modify (cells : Cells α) (i : Nat) {f : α → α} {g : α → β} (h : ∀ a, g (f a) = g a) (j : Nat) :
    ((cells.modify i f).get? j).map g = (cells.get? j).map g := by
  by_cases hj : j = i
  · subst hj
    rw [get?_modify_self, Option.map_map]
    cases cells.get? j <;> simp [h]
  · rw [get?_modify_of_ne cells f hj]

/-- What is there after a change was there before, the same in what the change leaves alone. -/
theorem exists_get?_of_modify {i j : Nat} {f : α → α} {b : α} (hb : (cells.modify i f).get? j = some b) (g : α → β)
    (h : ∀ a, g (f a) = g a) : ∃ a, cells.get? j = some a ∧ g a = g b := by
  have hsame := map_get?_modify cells i h j
  rw [hb, Option.map_some] at hsame
  exact Option.map_eq_some_iff.mp hsame.symm

/-- Every thing is still there later, the same in one respect. -/
def Later (g : α → β) (cells cells' : Cells α) : Prop :=
  ∀ i a, cells.get? i = some a → ∃ a', cells'.get? i = some a' ∧ g a' = g a

theorem Later.refl (g : α → β) (cells : Cells α) : cells.Later g cells := fun _ a ha => ⟨a, ha, rfl⟩

theorem Later.trans (h : cells.Later g cells') (h' : cells'.Later g cells'') : cells.Later g cells'' := by
  intro i a ha
  obtain ⟨a', ha', hg⟩ := h i a ha
  obtain ⟨a'', ha'', hg'⟩ := h' i a' ha'
  exact ⟨a'', ha'', hg'.trans hg⟩

theorem Later.size_le (h : cells.Later g cells') : cells.size ≤ cells'.size := by
  rcases Nat.eq_zero_or_pos cells.size with hz | hp
  · rw [hz]
    exact Nat.zero_le _
  · have hl : (cells.get? (cells.size - 1)).isSome = true := isSome_get?_iff.mpr (by omega)
    obtain ⟨a, ha⟩ := Option.isSome_iff_exists.mp hl
    obtain ⟨a', ha', -⟩ := h _ a ha
    have hlt : cells.size - 1 < cells'.size := isSome_get?_iff.mp (by rw [ha']; rfl)
    omega

theorem Later.add (g : α → β) (cells : Cells α) (a : α) : cells.Later g (cells.add a) := by
  intro i b hb
  have hi : i < cells.size := isSome_get?_iff.mp (by rw [hb]; rfl)
  exact ⟨b, by rw [get?_add_of_ne cells a (Nat.ne_of_lt hi), hb], rfl⟩

theorem Later.modify (cells : Cells α) (i : Nat) {f : α → α} (hf : ∀ a, g (f a) = g a) :
    cells.Later g (cells.modify i f) := by
  intro j b hb
  by_cases hj : j = i
  · subst hj
    exact ⟨f b, by rw [get?_modify_self, hb, Option.map_some], hf b⟩
  · exact ⟨b, by rw [get?_modify_of_ne cells f hj, hb], rfl⟩

end Cells

end SceneTree
