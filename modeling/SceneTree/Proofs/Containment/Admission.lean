import SceneTree.Proofs.Containment.Surroundings
import SceneTree.Proofs.Containment.Typing

/-!
# Who is admitted

A node of the types that its attributes are declared with is admitted to a scope if and only if the rules let it stand
below the nodes that the scope stands for. All that is left to say then is how many values a parameter is given.
-/

namespace SceneTree

section

open Branch

variable {scope : NodeScope} {n n' : Handle} {doc doc' : Document} {b : Branch} {out : Option NodeScope}
  {above : List Branch} {forest : List (Tree Value)}

/-- Some object stands above if and only if one of them is the nearest. -/
theorem exists_nearestObject_iff : (∃ a, nearestObject above = some a) ↔ ∃ a ∈ above, a.kind.isObject = true := by
  unfold nearestObject
  rw [← Option.isSome_iff_exists, List.find?_isSome]

/-- The nearest object above is a sprite if and only if the object that the scope binds is one. -/
theorem Surrounds.sprite_iff (h : Surrounds above scope doc) :
    (∃ i, scope.get .object = some i ∧ ∃ object, doc.objectCells.get? i = some object ∧
      object.objectType.isText "sprite" = true) ↔
      ∃ a, nearestObject above = some a ∧ (a.node.get .objectType).isText "sprite" = true := by
  constructor
  · rintro ⟨i, hi, object, ho, ht⟩
    obtain ⟨a, ha⟩ := exists_nearestObject_iff.mpr (h.object.mp ⟨i, hi⟩)
    obtain ⟨object', ho', ht'⟩ := h.objectType i a hi ha
    rw [ho] at ho'
    cases ho'
    exact ⟨a, ha, ht' ▸ ht⟩
  · rintro ⟨a, ha, ht⟩
    obtain ⟨i, hi⟩ := h.object.mpr (exists_nearestObject_iff.mp ⟨a, ha⟩)
    obtain ⟨object, ho, ht'⟩ := h.objectType i a hi ha
    exact ⟨i, hi, object, ho, ht' ▸ ht⟩

/-- A scene stands only inside a project. -/
theorem Surrounds.project_of_scene (h : Surrounds above scope doc) (hw : scope.Within doc)
    (hs : ∃ a ∈ above, a.kind = .scene) : scope.get .project = some () := by
  obtain ⟨id, hid⟩ := h.scene.mpr hs
  exact hw.project_of_some (by decide) hid

/-- A script stands only inside a project. -/
theorem Surrounds.project_of_inBlock (h : Surrounds above scope doc) (hw : scope.Within doc) (hb : InBlock above) :
    scope.get .project = some () := by
  obtain ⟨c, hc⟩ := h.params.mpr hb
  exact hw.project_of_some (by decide) hc

open Evaluating

/-- A node that is admitted stands where it may and, as a parameter, is given at most one value. -/
theorem Surrounds.of_admissible (hs : Surrounds above scope doc)
    (h : Admissible b.node (Tree.literals b.children) scope doc) :
    b.Placed above ∧ (b.kind = .param → (b.node.paramValues (Tree.literals b.children)).length ≤ 1) := by
  unfold Admissible at h
  unfold Branch.Placed Branch.kind
  match hk : b.node.kind with
  | .fragment | .project => exact ⟨trivial, nofun⟩
  | .scene | .message | .function =>
    rw [hk] at h
    exact ⟨hs.project.mp h, nofun⟩
  | .object | .sprite | .textBox =>
    rw [hk] at h
    exact ⟨hs.scene.mp h.1, nofun⟩
  | .picture =>
    rw [hk] at h
    exact ⟨hs.sprite_iff.mp h, nofun⟩
  | .sound =>
    rw [hk] at h
    exact ⟨hs.object.mp h, nofun⟩
  | .variable | .table =>
    rw [hk] at h
    exact ⟨hs.project.mp h.1, nofun⟩
  | .localVariable =>
    rw [hk] at h
    obtain ⟨i, hi, -⟩ := h
    exact ⟨hs.function.mp ⟨i, hi⟩, nofun⟩
  | .statement =>
    rw [hk] at h
    exact ⟨hs.statements.mp h, nofun⟩
  | .script =>
    rw [hk] at h
    exact ⟨hs.params.mp h, nofun⟩
  | .param =>
    rw [hk] at h
    exact ⟨hs.params.mp h.1, fun _ => h.2⟩
  | .variableParam | .objectParam =>
    rw [hk] at h
    exact ⟨hs.params.mp h.1, nofun⟩
  | .pictureParam | .soundParam =>
    rw [hk] at h
    exact ⟨⟨hs.params.mp h.1, hs.object.mp h.2⟩, nofun⟩
  | .namedParam | .node =>
    rw [hk] at h
    exact h.elim

/-- A typed node is admitted if and only if it stands where it may and, as a parameter, is given at most one value. -/
theorem admissible_iff (hs : Surrounds above scope doc) (hw : scope.Within doc) (ht : b.node.Typed) :
    Admissible b.node (Tree.literals b.children) scope doc ↔
      b.Placed above ∧ (b.kind = .param → (b.node.paramValues (Tree.literals b.children)).length ≤ 1) := by
  refine ⟨hs.of_admissible, ?_⟩
  unfold Admissible Branch.Placed Branch.kind
  match hk : b.node.kind with
  | .fragment => exact fun _ => trivial
  | .project =>
    obtain ⟨entries, he⟩ := ht.interface hk
    have hlists := ht.lists hk
    intro _
    refine ⟨hw.root, ⟨entries, by rw [he]; rfl⟩, ?_⟩
    intro field hf
    obtain ⟨items, hi⟩ := hlists field hf
    exact ⟨items, by rw [hi]; rfl⟩
  | .scene | .message | .function => exact fun h => hs.project.mpr h.1
  | .object | .sprite | .textBox => exact fun h => ⟨hs.scene.mpr h.1, hs.project_of_scene hw h.1⟩
  | .picture => exact fun h => hs.sprite_iff.mpr h.1
  | .sound => exact fun h => hs.object.mpr h.1
  | .variable => exact fun h => ⟨hs.project.mpr h.1, fun i hi => Cells.isSome_get?_iff.mpr (hw.object i hi)⟩
  | .localVariable =>
    rintro ⟨hf, -⟩
    obtain ⟨i, hi⟩ := hs.function.mpr hf
    exact ⟨i, hi, Cells.isSome_get?_iff.mpr (hw.function i hi)⟩
  | .table =>
    obtain ⟨entries, he⟩ := ht.data hk
    exact fun h => ⟨hs.project.mpr h.1, entries, by rw [he]; rfl⟩
  | .statement => exact fun h => hs.statements.mpr h.1
  | .script => exact fun h => hs.params.mpr h.1
  | .param => exact fun h => ⟨hs.params.mpr h.1, h.2 rfl⟩
  | .variableParam | .objectParam => exact fun h => ⟨hs.params.mpr h.1, hs.project_of_inBlock hw h.1⟩
  | .pictureParam | .soundParam => exact fun h => ⟨hs.params.mpr h.1.1, hs.object.mpr h.1.2⟩
  | .namedParam | .node => exact fun h => h.1

/-- A node leaves a scope to its children if and only if its kind takes nodes. -/
theorem Effect.isSome_out (h : Effect scope n doc b out doc') : out.isSome = b.kind.takesNodes := by
  cases h with
  | object hk =>
    generalize b.kind = kind at hk ⊢
    cases kind <;> first | rfl | cases hk
  | named hk =>
    generalize b.kind = kind at hk ⊢
    cases kind <;> first | rfl | cases hk
  | _ hk =>
    rw [hk]
    rfl

/-- A node that contributes stands where it may. -/
theorem Contributes.placed (h : Contributes scope n doc b out doc') (hs : Surrounds above scope doc) :
    b.Placed above :=
  (hs.of_admissible (admission_eq_ok_iff.mp h.admitted)).1

/-- A node that contributes, and holds no nodes unless it has left them a scope, holds what it may. -/
theorem Contributes.holds (h : Contributes scope n doc b out doc') (hs : Surrounds above scope doc)
    (hc : out = none → Tree.nodesOf b.children = []) : b.Holds where
  nodes := by
    intro hk
    rw [← h.effect.isSome_out] at hk
    exact hc (Option.not_isSome_iff_eq_none.mp (by rw [hk]; decide))
  literals := fun hk => Decidable.not_not.mp fun hl => hk (h.literals hl)
  single := (hs.of_admissible (admission_eq_ok_iff.mp h.admitted)).2

/-- In a forest that was filled in, every node stands where it may and holds what it may. -/
theorem Fills.placed (h : Fills scope forest n doc n' doc') (hs : Surrounds above scope doc) :
    Tree.EverywhereIn (fun above b => b.Placed above ∧ b.Holds) above forest := by
  induction h generalizing above with
  | nil => exact Tree.everywhereIn_nil
  | literal v _ ih =>
    rw [Tree.everywhereIn_literal]
    exact ih hs
  | leaf hb hc _ ih =>
    refine Tree.everywhereIn_node.mpr ⟨⟨hb.placed hs, hb.holds hs fun _ => hc⟩, ?_, ?_⟩
    · exact Tree.everywhereIn_of_nodesOf hc
    · exact ih (hs.later hb.effect.later)
  | branch hb hc _ ihc ihr =>
    refine Tree.everywhereIn_node.mpr ⟨⟨hb.placed hs, hb.holds hs nofun⟩, ?_, ?_⟩
    · exact ihc (hs.below hb.effect)
    · exact ihr (hs.later (hb.effect.later.trans hc.later))

end

end SceneTree
