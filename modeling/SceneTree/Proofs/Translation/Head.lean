import SceneTree.Proofs.Sameness
import SceneTree.Proofs.Translation.Contents

/-!
# What the project says of itself

The first project that is met fills the document, and the objects that are selected come after it, since there is no
object outside of a project. So the interface shows the last of them, whatever came before.
-/

namespace SceneTree

/-- A key that was put twice has the second value. -/
theorem Entries.put_put (entries : Entries) (key v w : Value) :
    (entries.put key v).put key w = entries.put key w := by
  induction entries with
  | nil => simp [put, Value.same_self]
  | cons p rest ih =>
    obtain ⟨k, u⟩ := p
    by_cases h : k.same key = true
    · simp [put, h]
    · simp [put, h, ih]

/-- The interface shows the last of some objects. -/
theorem ProjectHead.foldl_showing (head : ProjectHead) (ids : List Value) :
    ids.foldl ProjectHead.showing head = match ids.getLast? with
      | some id => head.showing id
      | none => head := by
  induction ids generalizing head with
  | nil => rfl
  | cons id rest ih =>
    rw [List.foldl_cons, ih, List.getLast?_cons]
    cases rest.getLast? with
    | none => rfl
    | some last => simp [showing, Entries.put_put]

theorem foldl_succ {α : Type} (xs : List α) (k : Nat) : xs.foldl (fun k _ => k + 1) k = k + xs.length := by
  induction xs generalizing k with
  | nil => rfl
  | cons x rest ih =>
    rw [List.foldl_cons, ih, List.length_cons]
    omega

section

variable {scope inner : NodeScope} {n n' : Handle} {doc doc₁ doc' : Document} {b : Branch} {out : Option NodeScope}
  {forest : List (Tree Value)}

/-- Each project is put on record once. -/
theorem projects_channel :
    Channel (fun doc => doc.populatedBy.length) (fun k _ => k + 1) (fun _ _ => ()) (fun _ => Branch.project?)
      fun _ _ _ => True where
  gives := by
    intro _ scope n doc b out doc₁ _ h
    cases h.effect with
    | project hk =>
      rw [Branch.project?, if_pos hk, h.blank hk]
      rfl
    | _ hk =>
      rw [Branch.project?, if_neg (by intro he; rw [he] at hk; cases hk)]
      rfl
  inner := fun _ _ => trivial
  later := fun _ _ => trivial

/-- A document counts as filled by as many projects as there are in the forest. -/
theorem Fills.length_populatedBy (h : Fills scope forest n doc n' doc') :
    doc'.populatedBy.length = doc.populatedBy.length + (Tree.each Branch.project? forest).length := by
  have hfill := projects_channel.fills h (c := ()) trivial
  rw [foldl_succ] at hfill
  exact hfill

/-- After a project has filled the document, the interface shows one selected object after the other. -/
theorem selected_channel :
    Channel (fun doc => doc.head) ProjectHead.showing (fun _ _ => ()) (fun _ => Branch.selectedObject?)
      fun _ _ doc => doc.populatedBy ≠ [] where
  gives := by
    intro _ scope n doc b out doc₁ hp h
    by_cases hk : b.kind.isObject = true
    · obtain ⟨scene, -, -, rfl⟩ := h.effect.of_isObject hk
      by_cases hs : (b.node.get .selected).truthy = true
      · rw [Branch.selectedObject?, if_pos ⟨hk, hs⟩]
        simp only [Document.addObject, hs, if_true]
        rfl
      · rw [Branch.selectedObject?, if_neg fun hc => hs hc.2]
        simp only [Document.addObject, hs, Bool.false_eq_true, if_false]
        rfl
    · rw [Branch.selectedObject?, if_neg fun hc => hk hc.1]
      cases h.effect with
      | project hk' => exact absurd (h.first hk') hp
      | object hk' => exact absurd hk' hk
      | _ => rfl
  inner := fun hp h he => hp (List.prefix_nil.mp (he ▸ h.effect.later.populatedBy))
  later := fun hp hl he => hp (List.prefix_nil.mp (he ▸ hl.populatedBy))

/-- Before a project has filled the document, a node is a project or changes nothing, and it is no object. -/
theorem Contributes.of_unfilled (h : Contributes scope n doc b out doc₁) (hp : doc.populatedBy = []) :
    b.kind = .project ∨ b.kind ≠ .project ∧ b.kind.isObject = false ∧ doc₁ = doc := by
  have hbare : scope.get .project = none := by
    cases hproj : scope.get .project with
    | none => rfl
    | some _ => exact absurd hp (h.within.project hproj)
  by_cases hk : b.kind = .project
  · exact .inl hk
  · refine .inr ⟨hk, ?_, (h.effect.kind_of_bare h.within hbare).resolve_left hk⟩
    cases ho : b.kind.isObject with
    | false => rfl
    | true =>
      obtain ⟨scene, hs, -⟩ := h.effect.of_isObject ho
      rw [h.within.bare hbare .sceneId (by decide)] at hs
      cases hs

/-- In a document that a project has filled, the interface shows the selected objects of a forest in turn. -/
theorem Fills.head_of_filled (h : Fills scope forest n doc n' doc') (hp : doc.populatedBy ≠ []) :
    doc'.populatedBy ≠ [] ∧ doc'.head =
      (Tree.gatherOf (fun _ _ => ()) (fun _ => Branch.selectedObject?) () forest).foldl ProjectHead.showing doc.head :=
  ⟨fun he => hp (List.prefix_nil.mp (he ▸ h.later.populatedBy)), selected_channel.fills h hp⟩

/-- What a forest makes of an empty document: nothing if there is no project in it, and otherwise the first project with
the selected objects that come after it, which are all. -/
theorem Fills.head_of_unfilled (h : Fills scope forest n doc n' doc') (hp : doc.populatedBy = []) :
    (doc' = doc ∧ Tree.each Branch.project? forest = [] ∧ Tree.each Branch.selectedObject? forest = []) ∨
      doc'.populatedBy ≠ [] ∧ ∃ project rest, Tree.each Branch.project? forest = project :: rest ∧
        doc'.head = (Tree.each Branch.selectedObject? forest).foldl ProjectHead.showing project.projectHead := by
  unfold Tree.each
  induction h with
  | nil => exact .inl ⟨rfl, rfl, rfl⟩
  | literal v _ ih => exact ih hp
  | leaf hb hc hr ih =>
    rcases hb.of_unfilled hp with hk | ⟨hk, ho, rfl⟩
    · cases (hb.effect.of_project hk).1
    · rw [Tree.gatherOf_node, Tree.gatherOf_node, Branch.project?, if_neg hk, Branch.selectedObject?,
        if_neg (by rw [ho]; rintro ⟨he, -⟩; cases he), Tree.gatherOf_of_nodesOf_eq_nil hc,
        Tree.gatherOf_of_nodesOf_eq_nil hc]
      exact ih hp
  | branch hb hc hr ihc ihr =>
    rw [Tree.gatherOf_node, Tree.gatherOf_node]
    rcases hb.of_unfilled hp with hk | ⟨hk, ho, rfl⟩
    · have hselected : Branch.selectedObject? _ = none := if_neg fun hc : _ ∧ _ => by
        rw [hk] at hc
        cases hc.1
      obtain ⟨-, rfl⟩ := hb.effect.of_project hk
      obtain ⟨hne₂, hhead₂⟩ := hc.head_of_filled (populatedBy_populate _ _ _)
      obtain ⟨hne, hhead⟩ := hr.head_of_filled hne₂
      refine .inr ⟨hne, _, _, by rw [Branch.project?, if_pos hk]; rfl, ?_⟩
      rw [hselected, hhead, hhead₂, Option.toList_none, List.nil_append, List.foldl_append]
      rfl
    · have hselected : Branch.selectedObject? _ = none := if_neg fun hc : _ ∧ _ => by
        rw [ho] at hc
        cases hc.1
      rw [hselected, Branch.project?, if_neg hk, Option.toList_none, Option.toList_none, List.nil_append,
        List.nil_append]
      rcases ihc hp with ⟨rfl, hproject, hchildren⟩ | ⟨hne₂, project, rest, hproject, hhead₂⟩
      · rw [hproject, hchildren]
        exact ihr hp
      · obtain ⟨hne, hhead⟩ := hr.head_of_filled hne₂
        refine .inr ⟨hne, project, _, by rw [hproject]; rfl, ?_⟩
        rw [hhead, hhead₂, List.foldl_append]

/-- What the finished document says of the project is what the tree says. -/
theorem Fills.head (h : Fills scope forest n .empty n' doc') : doc'.head = Tree.head forest := by
  unfold Tree.head
  rcases h.head_of_unfilled rfl with ⟨rfl, hproject, hselected⟩ | ⟨-, project, rest, hproject, hhead⟩
  · rw [hproject]
    rfl
  · rw [hproject, hhead, ProjectHead.foldl_showing]
    rfl

end

end SceneTree
