import SceneTree.Proofs.Containment.Rules
import SceneTree.Proofs.Translation.Contents

/-!
# What scopes say of the nodes above

A scope is all that a node sees of what stands above it. `Surrounds` says which bindings go with which ancestors, and
every contribution passes it on: no binding is forgotten and none leaks out of the node that made it.
-/

namespace SceneTree

section

open Branch

variable {scope inner : NodeScope} {n : Handle} {doc doc' : Document} {b : Branch} {above : List Branch}
  {out : Option NodeScope}

/-- What a scope binds is what the nodes above have put there. -/
structure Surrounds (above : List Branch) (scope : NodeScope) (doc : Document) : Prop where
  project : scope.get .project = some () ↔ ∃ a ∈ above, a.kind = .project
  scene : (∃ id, scope.get .sceneId = some id) ↔ ∃ a ∈ above, a.kind = .scene
  object : (∃ i, scope.get .object = some i) ↔ ∃ a ∈ above, a.kind.isObject = true
  objectType : ∀ i a, scope.get .object = some i → nearestObject above = some a →
    ∃ object, doc.objectCells.get? i = some object ∧ object.objectType = a.node.get .objectType
  function : (∃ i, scope.get .function = some i) ↔ ∃ a, nearestOwner above = some a ∧ a.kind = .function
  statements : (∃ c, scope.get .statements = some c) ↔ ∃ a ∈ above, a.kind.isOwner = true
  params : (∃ c, scope.get .params = some c) ↔ InBlock above
  nested : (∃ c, scope.get .params = some c) → ∃ c, scope.get .statements = some c

/-- Nothing stands above the root. -/
theorem Surrounds.root (doc : Document) : Surrounds [] .root doc where
  project := by simp [NodeScope.root]
  scene := by simp [NodeScope.root]
  object := by simp [NodeScope.root]
  objectType := by simp [NodeScope.root]
  function := by simp [NodeScope.root, nearestOwner]
  statements := by simp [NodeScope.root]
  params := by simp [NodeScope.root, InBlock, nearestBlock]
  nested := by simp [NodeScope.root]

/-- A scope says the same of the nodes above in a later document. -/
theorem Surrounds.later (h : Surrounds above scope doc) (hl : doc.Later doc') : Surrounds above scope doc' :=
  { h with
    objectType := by
      intro i a hi ha
      obtain ⟨object, ho, ht⟩ := h.objectType i a hi ha
      obtain ⟨object', ho', hf⟩ := hl.objects i object ho
      have htype : object'.frame.objectType = object.frame.objectType := by rw [hf]
      exact ⟨object', ho', (show object'.objectType = object.objectType from htype).trans ht⟩ }

/-- The scope below a node says of it, and of the nodes above it, what it should. -/
theorem Surrounds.below (h : Surrounds above scope doc) (he : Effect scope n doc b (some inner) doc') :
    Surrounds (b :: above) inner doc' where
  project := by
    rw [he.get_project, exists_mem_cons, ← h.project]
    split
    · next hk => simp [hk]
    · next hk => simp [hk]
  scene := by
    rw [he.get_sceneId, exists_mem_cons, ← h.scene]
    split
    · next hk => simp [hk]
    · next hk => simp [hk]
  object := by
    rw [he.get_object, exists_mem_cons, ← h.object]
    split
    · next hk => simp [hk]
    · next hk => simp [hk]
  objectType := by
    intro i a hi ha
    unfold nearestObject at ha
    rw [he.get_object] at hi
    rw [List.find?_cons] at ha
    by_cases hk : b.kind.isObject = true
    · obtain ⟨scene, -, -, rfl⟩ := he.of_isObject hk
      rw [if_pos hk] at hi
      rw [hk] at ha
      cases hi
      cases ha
      exact ⟨_, Cells.get?_add_self _ _, rfl⟩
    · rw [if_neg hk] at hi
      rw [Bool.not_eq_true] at hk
      rw [hk] at ha
      exact (h.later he.later).objectType i a hi ha
  function := by
    rw [he.get_function, nearestOwner_cons, ← h.function]
    split
    · next hk =>
      have hf : b.kind ≠ .function := by
        intro hf
        rw [hf] at hk
        cases hk
      simp [Kind.isOwner, hk, hf]
    · next hk =>
      split
      · next hf => simp [hf]
      · next hf => simp [Kind.isOwner, hk, hf]
  statements := by
    rw [he.get_statements, exists_mem_cons, ← h.statements, Kind.isOwner_iff]
    split
    · next hk => simp [hk]
    · next hk =>
      split
      · next hs =>
        -- a script has no place for parameters unless something above it has one for statements
        obtain ⟨place, hp⟩ := he.params_of_script hs
        exact ⟨fun _ => .inr (h.nested ⟨_, hp⟩), fun _ => ⟨_, rfl⟩⟩
      · exact (or_iff_right hk).symm
  params := by
    rw [he.get_params, inBlock_cons, ← h.params, ← Bool.not_eq_true, Kind.isOwner_iff]
    split
    · next hk => simp [hk, Kind.takesParams_of_isOwner (Kind.isOwner_iff.mpr hk)]
    · next hk =>
      rw [Kind.takesParams_iff]
      split
      · next hp => simp [hp]
      · next hp => simp [hk, hp]
  nested := by
    rw [he.get_params, he.get_statements]
    by_cases hk : b.kind.isObject = true ∨ b.kind = .function
    · rw [if_pos hk, if_pos hk]
      rintro ⟨_, hc⟩
      cases hc
    · rw [if_neg hk, if_neg hk]
      by_cases hs : b.kind = .script
      · rw [if_pos hs]
        exact fun _ => ⟨_, rfl⟩
      · rw [if_neg hs]
        by_cases ht : b.kind = .statement
        · obtain ⟨place, hp⟩ := he.statements_of_statement ht
          exact fun _ => ⟨_, hp⟩
        · rw [if_neg (not_or.mpr ⟨ht, hs⟩)]
          exact h.nested

end

end SceneTree
