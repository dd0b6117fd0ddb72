import Mathlib.Data.Nat.Find
import SceneTree.Identifier.Pool

/-!
# Which draw gives an id

Draws of one length follow each other, and each spells an id. The first one that spells an id not in use is the one that
a pool gives; the draws before it are thrown away, and no more are made.
-/

namespace SceneTree

namespace Entropy

/-- The source after some draws of a length. -/
def after (source : Entropy) (length : Nat) : (draws : Nat) → Entropy
  | 0 => source
  | draws + 1 => (source.draw length).2.after length draws

/-- What the draw of a length with a number, counted from zero, spells. -/
def spelled (source : Entropy) (length number : Nat) : String :=
  IdPool.spell ((source.after length number).draw length).1

@[simp] theorem length_spelled (source : Entropy) (length number : Nat) :
    (source.spelled length number).length = length := by
  simp [spelled, IdPool.spell]

/-- Draws leave to a source what it draws later. -/
theorem later_after (source : Entropy) (length draws : Nat) : (source.after length draws).later = source.later := by
  induction draws generalizing source with
  | zero => rfl
  | succ draws ih =>
    rw [after, ih, draw]
    split <;> rfl

end Entropy

namespace IdPool

variable {pool pool' : IdPool} {source source' : Entropy} {n k fuel : Nat} {length : Int} {id : String}

/-- The draw with a number is the first one that spells an id not in use. -/
structure FirstUnused (pool : IdPool) (source : Entropy) (n k : Nat) : Prop where
  used : ∀ i < k, pool.contains (.str (source.spelled n i)) = true
  unused : pool.contains (.str (source.spelled n k)) = false

/-- The first draw of an unused id gives the id if it is tried. -/
theorem FirstUnused.freshDraw (h : pool.FirstUnused source n k) (hk : k < fuel) :
    pool.freshDraw n fuel source = (some (source.spelled n k), source.after n (k + 1)) := by
  induction k generalizing source fuel with
  | zero =>
    cases fuel with
    | zero => omega
    | succ fuel =>
      have hunused := h.unused
      simp only [Entropy.spelled, Entropy.after] at hunused
      simp [IdPool.freshDraw, Entropy.spelled, Entropy.after, hunused]
  | succ k ih =>
    cases fuel with
    | zero => omega
    | succ fuel =>
      have hfirst := h.used 0 (Nat.succ_pos k)
      simp only [Entropy.spelled, Entropy.after] at hfirst
      have hrest : pool.FirstUnused (source.draw n).2 n k :=
        ⟨fun i hi => h.used (i + 1) (Nat.succ_lt_succ hi), h.unused⟩
      simp only [IdPool.freshDraw, hfirst, if_true]
      exact ih hrest (Nat.lt_of_succ_lt_succ hk)

/-- When all tries spell ids in use, they are in vain. -/
theorem freshDraw_of_used (h : ∀ i < fuel, pool.contains (.str (source.spelled n i)) = true) :
    pool.freshDraw n fuel source = (none, source.after n fuel) := by
  induction fuel generalizing source with
  | zero => rfl
  | succ fuel ih =>
    have hfirst := h 0 (Nat.succ_pos fuel)
    simp only [Entropy.spelled, Entropy.after] at hfirst
    simp only [IdPool.freshDraw, hfirst, if_true]
    exact ih fun i hi => h (i + 1) (Nat.succ_lt_succ hi)

/-- Among draws of which one spells an unused id there is a first one. -/
theorem exists_firstUnused {bound : Nat} (h : pool.contains (.str (source.spelled n bound)) = false) :
    ∃ k ≤ bound, pool.FirstUnused source n k := by
  classical
  have hex : ∃ k, pool.contains (.str (source.spelled n k)) = false := ⟨bound, h⟩
  refine ⟨Nat.find hex, Nat.find_min' hex h, fun i hi => ?_, Nat.find_spec hex⟩
  simpa using Nat.find_min hex hi

/-- A pool gives the id that the first draw of an unused one spells, if that is among the tries. -/
theorem FirstUnused.next (h : pool.FirstUnused source length.toNat k) (hpos : 0 < length)
    (hk : k < pool.attempts source) :
    pool.next source length = (.ok (source.spelled length.toNat k), pool.reserve (.str (source.spelled length.toNat k)),
      source.after length.toNat (k + 1)) := by
  rw [IdPool.next, if_neg (by omega), h.freshDraw hk]

/-- What a pool may answer when it is asked for an id: that the length is none, what the first draw of an unused id
spells, or that all tries were in vain. -/
theorem next_cases {outcome : Except Fault String} (h : pool.next source length = (outcome, pool', source')) :
    (length ≤ 0 ∧ outcome = .error (.idLength length) ∧ pool' = pool ∧ source' = source) ∨
      (0 < length ∧ ∃ k, pool.FirstUnused source length.toNat k ∧ outcome = .ok (source.spelled length.toNat k) ∧
        pool' = pool.reserve (.str (source.spelled length.toNat k)) ∧ source' = source.after length.toNat (k + 1)) ∨
      (0 < length ∧ outcome = .error .noFreshId ∧ pool' = pool ∧
        ∀ i < pool.attempts source, pool.contains (.str (source.spelled length.toNat i)) = true) := by
  by_cases hpos : length ≤ 0
  · rw [next, if_pos hpos] at h
    cases h
    exact .inl ⟨hpos, rfl, rfl, rfl⟩
  by_cases hall : ∀ i < pool.attempts source, pool.contains (.str (source.spelled length.toNat i)) = true
  · rw [next, if_neg hpos, freshDraw_of_used hall] at h
    cases h
    exact .inr (.inr ⟨by omega, rfl, rfl, hall⟩)
  · simp only [not_forall, Bool.not_eq_true] at hall
    obtain ⟨i, hi, hunused⟩ := hall
    obtain ⟨k, hk, hfirst⟩ := exists_firstUnused hunused
    rw [hfirst.next (by omega) (by omega)] at h
    cases h
    exact .inr (.inl ⟨by omega, k, hfirst, rfl, rfl, rfl⟩)

/-- A new id is spelled by the first draw of an unused one, and is reserved. -/
theorem exists_of_next_eq_ok (h : pool.next source length = (.ok id, pool', source')) :
    ∃ k, pool.FirstUnused source length.toNat k ∧ id = source.spelled length.toNat k ∧
      pool' = pool.reserve (.str id) ∧ source' = source.after length.toNat (k + 1) := by
  rcases next_cases h with ⟨-, ho, -⟩ | ⟨-, k, hfirst, ho, hp, hs⟩ | ⟨-, ho, -⟩
  · cases ho
  · cases ho
    exact ⟨k, hfirst, rfl, hp, hs⟩
  · cases ho

/-- A new id has the length that was asked for. -/
theorem length_of_next (h : pool.next source length = (.ok id, pool', source')) : id.length = length.toNat := by
  obtain ⟨k, -, rfl, -⟩ := exists_of_next_eq_ok h
  exact Entropy.length_spelled source length.toNat k

/-- A new id was not in use before, and is reserved. -/
theorem of_next_eq_ok (h : pool.next source length = (.ok id, pool', source')) :
    pool.contains (.str id) = false ∧ pool' = pool.reserve (.str id) := by
  obtain ⟨k, hfirst, rfl, hp, -⟩ := exists_of_next_eq_ok h
  exact ⟨hfirst.unused, hp⟩

/-- No id goes out of use when none is found. -/
theorem of_next_eq_error {fault : Fault} (h : pool.next source length = (.error fault, pool', source')) :
    pool' = pool := by
  rcases next_cases h with ⟨-, -, hp, -⟩ | ⟨-, k, -, ho, -⟩ | ⟨-, -, hp, -⟩
  · exact hp
  · cases ho
  · exact hp

/-- An id that was not in use comes after all others when it is reserved. -/
theorem reserve_of_not_contains {v : Value} (h : pool.contains v = false) : pool.reserve v = ⟨pool.issued ++ [v]⟩ := by
  simp [reserve, h]

/-- Reserving an id leaves the others in use. -/
theorem contains_reserve_of_contains (id : Value) {v : Value} (h : pool.contains v = true) :
    (pool.reserve id).contains v = true := by
  unfold reserve
  split
  · exact h
  · unfold contains at h ⊢
    rw [List.any_append, h, Bool.true_or]

/-- At most one more id is in use after one was reserved. -/
theorem length_reserve_le (pool : IdPool) (id : Value) : (pool.reserve id).issued.length ≤ pool.issued.length + 1 := by
  rw [reserve]
  split
  · exact Nat.le_add_right _ _
  · simp

end IdPool

end SceneTree
