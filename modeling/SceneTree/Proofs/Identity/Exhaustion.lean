import SceneTree.Proofs.Identifier.Counting
import SceneTree.Proofs.Translation.Successes

/-!
# When ids run out

From a source that counts a new id is found as long as there is one. An evaluation puts at most one id in use for each
node, so it fails for want of ids only when nearly all of them are in use.
-/

namespace SceneTree

/-- A supply has no ids left for some nodes: if its source counts, then all ids are in use after them. -/
def IdSupply.Exhausted (supply : IdSupply) (nodes : Nat) : Prop :=
  supply.source.later = Entropy.counterByte → 36 ^ 4 ≤ supply.pool.issued.length + nodes

namespace Evaluating

variable {e e₁ e' : Evaluation}

/-- An evaluation goes on with the source that it had, and with at most so many more ids in use. -/
structure Uses (e : Evaluation) (count : Nat) (e' : Evaluation) : Prop where
  issued : e'.supply.pool.issued.length ≤ e.supply.pool.issued.length + count
  later : e'.supply.source.later = e.supply.source.later

theorem Uses.refl (e : Evaluation) : Uses e 0 e := ⟨Nat.le_refl _, rfl⟩

theorem Uses.trans {k k' : Nat} (h : Uses e k e₁) (h' : Uses e₁ k' e') : Uses e (k + k') e' :=
  ⟨by have := h.issued; have := h'.issued; omega, h'.later.trans h.later⟩

/-- A supply that has no ids left after some nodes had none left for these and those that follow. -/
theorem Uses.exhausted {k k' n : Nat} (h : Uses e k e₁) (hx : e₁.supply.Exhausted k') (hn : k + k' ≤ n) :
    e.supply.Exhausted n := by
  intro hl
  have hle := hx (h.later.trans hl)
  have hissued := h.issued
  omega

/-- No new id is drawn only from a supply that has none left. -/
theorem fault_of_freshId {fault : Fault} (h : freshId e = (.error fault, e')) :
    fault = .noFreshId ∧ e.supply.Exhausted 0 := by
  rcases hn : e.supply.pool.next e.supply.source IdPool.defaultLength with ⟨fault' | _, pool, source⟩
  · simp only [freshId, hn] at h
    cases h
    have hfault : fault = .noFreshId := by
      rw [IdPool.next, if_neg (by decide)] at hn
      split at hn
      · cases hn
      · cases hn
        rfl
    subst hfault
    exact ⟨rfl, IdPool.le_of_next_eq_noFreshId hn⟩
  · simp only [freshId, hn] at h
    cases h

/-- A node that is given an id puts at most one more in use. -/
theorem uses_of_request {node : Node} {handle : Handle} {id : Value} (h : request node handle e = (.ok id, e')) :
    Uses e 1 e' := by
  rcases request_eq node handle e with ⟨authored, -, heq⟩ | heq
  · rw [heq, instanceId_apply] at h
    split at h
    · split at h
      · cases h
      · split at h
        · cases h
        · cases h
          exact ⟨IdPool.length_reserve_le _ _, rfl⟩
    · split at h
      · cases h
        exact ⟨Nat.le_add_right _ _, rfl⟩
      · rcases hn : e.supply.pool.next e.supply.source IdPool.defaultLength with ⟨_ | s, pool, source⟩
        · simp only [freshId, hn] at h
          cases h
        · simp only [freshId, hn] at h
          cases h
          obtain ⟨k, -, -, rfl, rfl⟩ := IdPool.exists_of_next_eq_ok hn
          exact ⟨IdPool.length_reserve_le _ _, Entropy.later_after _ _ _⟩
  · rw [heq] at h
    cases h
    exact ⟨Nat.le_add_right _ _, rfl⟩

/-- A visit puts at most one more id in use. -/
theorem uses_of_visit {mark : Nat} {node : Node} {literals : List Value} {scope : NodeScope} {out : Option NodeScope}
    (h : visit mark node literals scope e = (.ok out, e')) : Uses e 1 e' := by
  obtain ⟨id, e₀, hr, -, he⟩ := effect_of_visit h
  rw [he]
  exact ⟨(uses_of_request hr).issued, (uses_of_request hr).later⟩

/-- An evaluation puts at most one more id in use for each node. -/
theorem Evaluates.uses {scope : NodeScope} {forest : List (Tree Nat)} (h : Evaluates scope forest e e') :
    Uses e (Tree.nodesOf forest).length e' := by
  induction h with
  | nil => exact .refl _
  | literal v _ ih => exact ih
  | leaf hv hc _ ih =>
    have huses := (uses_of_visit hv).trans ih
    rw [Tree.nodesOf, Tree.nodes, hc, List.length_append, List.length_singleton]
    exact huses
  | branch hv _ _ ihc ihr =>
    have huses := ((uses_of_visit hv).trans ihc).trans ihr
    rw [Tree.nodesOf, Tree.nodes, List.length_append, List.length_cons, Nat.add_comm (List.length _) 1]
    exact huses

end Evaluating

end SceneTree
