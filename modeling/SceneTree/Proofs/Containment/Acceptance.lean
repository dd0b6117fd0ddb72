import SceneTree.Proofs.Containment.Layouts
import SceneTree.Proofs.Containment.Success
import SceneTree.Proofs.Translation.Compiled

/-!
# Trees that are compiled are those that keep the rules

A typed tree whose ids do not collide is compiled if and only if it keeps the rules of containment. What is evaluated
stands where it may, and what has a text names nothing that is not there. The other way round, what stands where it may
is evaluated, the pictures that objects show are their own, and what names only what is there has a text.
-/

namespace SceneTree

/-- A text equals itself, and so does null. -/
theorem Value.IsTextOrNull.equals_self {v : Value} (h : v.IsTextOrNull) : v.equals v = true := by
  rcases h with rfl | ⟨s, rfl⟩
  · exact Value.same_self .null
  · exact Value.same_self (.str s)

section

variable {forest : List (Tree Value)} {doc : Document} {plan : Plan}

/-- Where what the tree describes has a layout, all names in it are names of something. -/
theorem Tree.resolves_of_layout
    (h : Tree.EverywhereIn (fun above b => b.Placed above ∧ b.Holds) [] forest) {v : Value}
    (hl : (Tree.plan forest).layout = .ok v) :
    Tree.EverywhereIn (Branch.Resolves (Tree.names forest)) [] forest := by
  have hplaced := h.mp (Q := Branch.Placed) fun _ _ hb => hb.1
  obtain ⟨objects, hobjects, hl⟩ := Outcome.bind_eq_ok_iff.mp hl
  obtain ⟨functions, hfunctions, -⟩ := Outcome.bind_eq_ok_iff.mp hl
  have hscripts : ∀ o ∈ (Tree.plan forest).objects, ∀ v ∈ o.script, v.Encodable := by
    intro o ho
    obtain ⟨w, hw⟩ := Outcome.ok_of_mapM_eq_ok hobjects o ho
    obtain ⟨s, hs, -⟩ := Outcome.bind_eq_ok_iff.mp hw
    exact (Value.encodable_of_dump hs).slot
  have hcontents : ∀ f ∈ (Tree.plan forest).functions, ∀ v ∈ f.content, v.Encodable := by
    intro f hf
    obtain ⟨w, hw⟩ := Outcome.ok_of_mapM_eq_ok hfunctions f hf
    obtain ⟨s, hs, -⟩ := Outcome.bind_eq_ok_iff.mp hw
    exact (Value.encodable_of_dump hs).slot
  refine Tree.resolves_of_encodable h rfl ⟨?_, ?_⟩ hscripts hcontents
  · rw [Tree.statements_eq_nil hplaced (by simp)]
    exact List.forall_mem_nil _
  · rw [Tree.params_eq_nil hplaced (by simp [Branch.InBlock, Branch.nearestBlock])]
    exact List.forall_mem_nil _

/-- An object that the tree describes shows one of its own pictures, if any. -/
theorem Tree.selectedPicture_mem (h : Tree.EverywhereIn (fun _ => Branch.Typed) [] forest) :
    ∀ o ∈ (Tree.plan forest).objects, o.selectedPicture.isNull = true ∨
      ∃ e ∈ o.pictures, e.id.equals o.selectedPicture = true := by
  intro o ho
  obtain ⟨scene, above, b, -, hc, ho⟩ := h.of_mem_any ho
  obtain ⟨-, hobject⟩ := Option.ite_none_right_eq_some.mp ho
  cases hobject
  rcases b.selectedPicture_mem with hs | ⟨e, he, hs⟩
  · exact .inl (congrArg Value.isNull hs)
  · obtain ⟨-, b', hb', rfl⟩ := Branch.of_mem_pictures hc he
    refine .inr ⟨_, he, ?_⟩
    have hid : b.selectedPicture = b'.id := hs.symm
    change b'.id.equals b.selectedPicture = true
    rw [hid]
    exact hb'.id.equals_self

/-- The pictures that objects show are their own in a document if they are in what it shows. -/
theorem Document.Shows.checkSelectedPictures (h : doc.Shows plan)
    (hs : ∀ o ∈ plan.objects, o.selectedPicture.isNull = true ∨
      ∃ e ∈ o.pictures, e.id.equals o.selectedPicture = true) : doc.checkSelectedPictures = .ok () := by
  unfold Document.checkSelectedPictures
  have hobjects := h.objects
  generalize plan.objects = plans at hobjects hs
  generalize doc.objectEntries = objects at hobjects
  induction hobjects with
  | nil => rfl
  | @cons object o objects plans ho _ ih =>
    obtain ⟨hself, hrest⟩ := List.forall_mem_cons.mp hs
    have hselected : object.selectedPicture = o.selectedPicture := congrArg ObjectHead.selectedPicture ho.head
    refine Outcome.bind_eq_ok_iff.mpr ⟨(), if_pos ?_, ih hrest⟩
    rw [hselected, ho.pictures, Bool.or_eq_true, List.any_eq_true]
    exact hself

/-- A document with a plain layout has a text. -/
theorem Document.text_of_layout {v : Value} {readings : Readings} (h : doc.layout [] = (.ok v, readings))
    (hv : v.isJson = true) : ∃ s doc', Document.text .spaced doc = (.ok s, doc') := by
  obtain ⟨s, hs⟩ := JsonText.text_of_isJson .spaced hv rfl rfl
  refine ⟨s, doc.keep readings, ?_⟩
  unfold Document.text Document.reading
  simp only
  rw [Attempt.bind_apply_of_ok h]
  change (JsonText.text .spaced v, doc.keep readings) = _
  rw [hs]

end

namespace Evaluating

variable {tree : Tree Nat} {t : Tree Value} {supply supply' : IdSupply}

/-- A tree that is compiled keeps the rules. -/
theorem contained_of_compileTree {doc : Document} {e : Evaluation} (hn : (tree.nodes.map (·.1)).Nodup)
    (ht : tree.Typed) (hnamed : tree.named supply = (.ok t, supply')) (h : compileTree tree supply = (.ok doc, e)) :
    Tree.Contained [t] := by
  obtain ⟨t', n, doc₀, layout, readings, ht', hfill, hone, hl, -⟩ := fills_of_compileTree hn h
  obtain rfl : t' = t := by
    rw [hnamed] at ht'
    cases ht'
    rfl
  have htyped : Tree.EverywhereIn (fun _ => Branch.Typed) [] [t'] := by
    rw [Tree.EverywhereIn]
    exact ⟨ht.named hnamed [], Tree.everywhereIn_nil⟩
  have hplaced := hfill.placed (.root _)
  have hgiven : Tree.AllGiven [t'] := by
    rw [Tree.AllGiven, Tree.AllGiven]
    exact ⟨(ht.given).named hnamed, trivial⟩
  have hlayout : (Tree.plan [t']).layout = .ok layout := by rw [← hfill.layout_eq hgiven, hl]
  refine ⟨?_, hplaced.mp fun _ _ hb => hb.1, hplaced.mp fun _ _ hb => hb.2, Tree.resolves_of_layout hplaced hlayout⟩
  have hcount := hfill.length_populatedBy
  rw [hone] at hcount
  simpa [Document.empty] using hcount.symm

/-- An evaluation that has just begun is ready for any tree. -/
theorem ready_begun (supply : IdSupply) (notice : Notice) : (begun supply notice).Ready [] .root :=
  have ho := Evaluation.Owned.start supply
  ⟨tidy_begun supply notice, ⟨ho.met, ho.bound, ho.keyed, ho.inverse, ho.issued⟩, .root_scope _, .root _⟩

/-- A tree that keeps the rules and whose ids do not collide is compiled. -/
theorem compileTree_of_contained (hn : (tree.nodes.map (·.1)).Nodup) (ht : tree.Typed)
    (hnamed : tree.named supply = (.ok t, supply')) (hdistinct : (Tree.each Branch.authoredId? [t]).Nodup)
    (hdrawn : ∀ id ∈ Tree.each Branch.drawnId? [t], id ∉ Tree.each Branch.authoredId? [t])
    (hc : Tree.Contained [t]) : ∃ doc e, compileTree tree supply = (.ok doc, e) := by
  have htyped : Tree.EverywhereIn (fun _ => Branch.Typed) [] [t] := by
    rw [Tree.EverywhereIn]
    exact ⟨ht.named hnamed [], Tree.everywhereIn_nil⟩
  have hproper : Tree.EverywhereIn Branch.Proper [] [t] :=
    (htyped.and (hc.placed.and hc.holds)).mp fun _ _ h => ⟨h.1, h.2.1, h.2.2⟩
  have hgiven : Tree.AllGiven [t] := by
    rw [Tree.AllGiven, Tree.AllGiven]
    exact ⟨(ht.given).named hnamed, trivial⟩
  have hroot : tree.root?.isSome = true := by
    cases tree with
    | node mark data children => rfl
    | literal v =>
      rw [Tree.named] at hnamed
      cases hnamed
      cases hc.single
  obtain ⟨notice, hcompile⟩ := compileTree_apply tree supply
  -- the evaluation succeeds
  have hclear : (begun supply notice).Clear [t] [] := by
    refine ⟨by rw [List.append_nil]; exact hdistinct, by rw [List.append_nil]; exact hdrawn, ?_⟩
    intro handle id hi
    cases hi
  have hnew : Tree.New (begun supply notice).met tree.nodes := hn
  obtain ⟨e, he, hgoes⟩ := evaluate_of_proper tree hroot hnew hnamed (ready_begun supply notice) hproper hclear
  have hone : e.document.populatedBy.length ≤ 1 := by
    have hp := hgoes.projects
    rw [hc.single] at hp
    exact hp
  -- and fills the document as the tree says
  obtain ⟨t', ht', hfill, -, -⟩ := fills_of_evaluate tree he hn (tidy_begun supply notice) (.root_scope _) hone
  obtain rfl : t' = t := by
    have hsame := hnamed.symm.trans ht'
    cases hsame
    rfl
  have hlength : e.document.populatedBy.length = 1 := by
    rw [hfill.length_populatedBy, hc.single]
    rfl
  obtain ⟨handle, hpopulated⟩ := List.length_eq_one_iff.mp hlength
  have hcheck := (hfill.shows_plan hgiven).checkSelectedPictures (Tree.selectedPicture_mem htyped)
  -- which has a text
  obtain ⟨v, hv, hj⟩ := Tree.layout_plan (htyped.and hc.resolves) fun hp => by
    have hsingle := hc.single
    rw [hp] at hsingle
    cases hsingle
  have hlayout : (e.document.layout []).1 = .ok v := (hfill.layout_eq hgiven).trans hv
  obtain ⟨s, doc, htext⟩ := Document.text_of_layout (Prod.ext hlayout rfl) hj
  rw [hcompile, he]
  simp only [hpopulated, hcheck, htext]
  exact ⟨_, _, rfl⟩

/-- A typed tree of different nodes, whose authored ids are pairwise distinct and none of those that are drawn, is
compiled if and only if it keeps the rules of containment. -/
theorem compileTree_accepts_iff (hn : (tree.nodes.map (·.1)).Nodup) (ht : tree.Typed)
    (hnamed : tree.named supply = (.ok t, supply')) (hdistinct : (Tree.each Branch.authoredId? [t]).Nodup)
    (hdrawn : ∀ id ∈ Tree.each Branch.drawnId? [t], id ∉ Tree.each Branch.authoredId? [t]) :
    (∃ doc e, compileTree tree supply = (.ok doc, e)) ↔ Tree.Contained [t] := by
  constructor
  · rintro ⟨doc, e, h⟩
    exact contained_of_compileTree hn ht hnamed h
  · exact compileTree_of_contained hn ht hnamed hdistinct hdrawn

/-- A sprite on a scene, both with ids of their own, has a script that names the picture of the sprite. -/
def ownPicture : Tree Nat :=
  .node 0 (plainNode .project [(.name, .str "p")])
    [.node 1 (plainNode .scene [(.name, .str "s"), (.id, .str "a")])
      [.node 2 (plainNode .sprite [(.name, .str "o"), (.id, .str "b")])
        [.node 3 (plainNode .statement [])
          [.node 4 (plainNode .script [(.type, .str "t")])
            [.node 5 (plainNode .pictureParam [(.name, .str "i")]) [],
              .node 6 (plainNode .param []) [.literal (.bool true)]]],
          .node 7 (plainNode .picture [(.name, .str "i")]) []]]]

/-- The sprite is compiled, and so it keeps the rules. -/
theorem compileTree_accepts_iff_ownPicture :
    ∃ t supply', (ownPicture.nodes.map (·.1)).Nodup ∧ ownPicture.Typed ∧
      ownPicture.named ⟨.empty, .counting []⟩ = (.ok t, supply') ∧ (Tree.each Branch.authoredId? [t]).Nodup ∧
      (∀ id ∈ Tree.each Branch.drawnId? [t], id ∉ Tree.each Branch.authoredId? [t]) ∧
      (∃ doc e, compileTree ownPicture ⟨.empty, .counting []⟩ = (.ok doc, e)) ∧ Tree.Contained [t] := by
  have hn : (ownPicture.nodes.map (·.1)).Nodup := by decide
  have ht : ownPicture.Typed := by
    have hjson : ∀ node : Node, (∀ field ∈ Field.all, (node.get field).isJson = true) →
        ∀ field, (node.get field).isJson = true := fun _ h field => h field (Field.mem_all field)
    simp only [ownPicture, Tree.Typed, Tree.AllTyped, and_true]
    refine ⟨⟨hjson _ (by decide +kernel), .inl rfl, fun _ => ⟨_, rfl⟩, fun _ => ?_, nofun, nofun⟩,
      ⟨hjson _ (by decide +kernel), .inr ⟨_, rfl⟩, nofun, nofun, nofun, nofun⟩,
      ⟨hjson _ (by decide +kernel), .inr ⟨_, rfl⟩, nofun, nofun, nofun, nofun⟩,
      ⟨⟨hjson _ (by decide +kernel), .inl rfl, nofun, nofun, nofun, nofun⟩,
        ⟨hjson _ (by decide +kernel), .inl rfl, nofun, nofun, nofun, fun _ => ⟨_, rfl⟩⟩,
        ⟨hjson _ (by decide +kernel), .inl rfl, nofun, nofun, nofun, nofun⟩,
        ⟨hjson _ (by decide +kernel), .inl rfl, nofun, nofun, nofun, nofun⟩, rfl⟩,
      ⟨hjson _ (by decide +kernel), .inl rfl, nofun, nofun, nofun, nofun⟩⟩
    simp only [List.forall_mem_cons]
    exact ⟨⟨_, rfl⟩, ⟨_, rfl⟩, ⟨_, rfl⟩, ⟨_, rfl⟩, ⟨_, rfl⟩, List.forall_mem_nil _⟩
  have hok : (compileTree ownPicture ⟨.empty, .counting []⟩).1.isOk = true := by decide +kernel
  have hids : (match (ownPicture.named ⟨.empty, .counting []⟩).1 with
      | .ok t => decide (((Tree.each Branch.authoredId? [t]).map Value.toText).Nodup ∧
          ∀ id ∈ (Tree.each Branch.drawnId? [t]).map Value.toText,
            id ∉ (Tree.each Branch.authoredId? [t]).map Value.toText)
      | .error _ => false) = true := by decide +kernel
  rcases hnamed : ownPicture.named ⟨.empty, .counting []⟩ with ⟨_ | t, supply'⟩
  · rw [hnamed] at hids
    cases hids
  · rw [hnamed] at hids
    have hids := of_decide_eq_true hids
    have hdistinct := List.Nodup.of_map _ hids.1
    have hdrawn : ∀ id ∈ Tree.each Branch.drawnId? [t], id ∉ Tree.each Branch.authoredId? [t] :=
      fun id hi hm => hids.2 _ (List.mem_map_of_mem hi) (List.mem_map_of_mem hm)
    rcases hc : compileTree ownPicture ⟨.empty, .counting []⟩ with ⟨_ | doc, e⟩
    · rw [hc] at hok
      cases hok
    · have hcontained := (compileTree_accepts_iff hn ht hnamed hdistinct hdrawn).mp ⟨doc, e, hc⟩
      exact ⟨t, supply', hn, ht, rfl, hdistinct, hdrawn, ⟨doc, e, rfl⟩, hcontained⟩

end Evaluating

end SceneTree
