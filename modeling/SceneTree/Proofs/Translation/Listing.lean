import SceneTree.Proofs.Translation.Scripts

/-!
# Objects and functions in the end

The rosters of objects and functions name cells, and a cell is complete when the children of its node have been filled
in. So each entry is compared with the finished document: `Listing` says for one roster what a node adds to it, and
`Listing.fills` is the induction that follows the filling. The tree says of an object and of a function what the
finished document shows.
-/

namespace SceneTree

/-- The last of some items, by replacing each with the next. -/
theorem foldl_last {α : Type} (xs : List α) (a : α) : xs.foldl (fun _ x => x) a = xs.getLastD a := by
  induction xs generalizing a with
  | nil => rfl
  | cons x rest ih =>
    rw [List.foldl_cons, ih, List.getLastD_cons]

section

open Document

variable {scope inner : NodeScope} {n n₂ n' : Handle} {doc doc₁ doc₂ doc' fin : Document} {b : Branch}
  {out : Option NodeScope} {forest : List (Tree Value)} {names : Names}

/-- What a node adds to a roster of cells, compared with the finished document: cells that are as the tree says, in
contexts that stand in a relation to scopes. -/
structure Listing {κ α : Type} (fin : Document) (f : Document → List Nat) (Q : Nat → α → Prop) (step : κ → Branch → κ)
    (piece : κ → Branch → Option α) (R : κ → NodeScope → Prop) : Prop where
  leaf : ∀ {c scope n doc b doc₁}, Contributes scope n doc b none doc₁ → f doc₁ = f doc ∧ piece c b = none
  branch : ∀ {c scope inner n n₂ doc b doc₁ doc₂}, R c scope → Contributes scope n doc b (some inner) doc₁ →
    Fills inner b.children (n + 1) doc₁ n₂ doc₂ → doc.Settled doc₂ fin → Tree.AllGiven b.children →
    (∃ cells, f doc₁ = f doc ++ cells ∧ List.Forall₂ Q cells (piece c b).toList) ∧ R (step c b) inner

/-- What a forest has to offer is what comes to the roster when the forest is filled in. -/
theorem Listing.fills {κ α : Type} {f : Document → List Nat} {Q : Nat → α → Prop} {step : κ → Branch → κ}
    {piece : κ → Branch → Option α} {R : κ → NodeScope → Prop} (hlist : Listing fin f Q step piece R) {c : κ}
    (h : Fills scope forest n doc n' doc') (hs : doc.Settled doc' fin) (hg : Tree.AllGiven forest) (hR : R c scope) :
    ∃ cells, f doc' = f doc ++ cells ∧ List.Forall₂ Q cells (Tree.gatherOf step piece c forest) := by
  induction h generalizing c with
  | nil => exact ⟨[], (List.append_nil _).symm, .nil⟩
  | literal v _ ih =>
    rw [Tree.AllGiven] at hg
    exact ih hs hg.2 hR
  | leaf hb hc hr ih =>
    rw [Tree.AllGiven] at hg
    obtain ⟨hf, hp⟩ := hlist.leaf (c := c) hb
    obtain ⟨cells, hcells, hQ⟩ := ih (hs.after hb.effect.later) hg.2 hR
    rw [Tree.gatherOf_node, Tree.gatherOf_of_nodesOf_eq_nil hc, hp]
    exact ⟨cells, by rw [hcells, hf], hQ⟩
  | branch hb hc hr ihc ihr =>
    rw [Tree.AllGiven, Tree.Given] at hg
    have hs₂ := hs.before hr hb.within
    obtain ⟨⟨own, hown, hQown⟩, hRin⟩ := hlist.branch hR hb hc hs₂ hg.1.2
    obtain ⟨below, hbelow, hQbelow⟩ := ihc (hs₂.after hb.effect.later) hg.1.2 hRin
    obtain ⟨rest, hrest, hQrest⟩ := ihr (hs.after (hb.effect.later.trans hc.later)) hg.2 hR
    refine ⟨own ++ (below ++ rest), ?_, ?_⟩
    · rw [hrest, hbelow, hown, List.append_assoc, List.append_assoc]
    · rw [Tree.gatherOf_node]
      exact List.rel_append hQown (List.rel_append hQbelow hQrest)

/-- The cell of an object is complete when its children have been filled in: what the object said itself, its own
pictures and sounds, and the last of the pictures that is selected. -/
theorem Contributes.object_settled (hb : Contributes scope n doc b (some inner) doc₁)
    (hc : Fills inner b.children (n + 1) doc₁ n₂ doc₂) (hs : doc.Settled doc₂ fin) (hk : b.kind.isObject = true) :
    ∃ object scene, scope.get .sceneId = some scene ∧ fin.objectCells.get? doc.objectCells.size = some object ∧
      object.frame = b.node.objectEntry b.id scene doc.parts.size ∧ object.selectedPicture = b.selectedPicture ∧
      object.pictures.values = b.pictures ∧ object.sounds.values = b.sounds := by
  obtain ⟨scene, hscene, hout, rfl⟩ := hb.effect.of_isObject hk
  have hsize : doc.objectCells.size < (doc.addPlace.addObject n (b.node.objectEntry b.id scene doc.parts.size)
      (b.node.get .selected).truthy).objectCells.size := by
    simp [addObject, addPlace]
  have hnew : (doc.addPlace.addObject n (b.node.objectEntry b.id scene doc.parts.size)
      (b.node.get .selected).truthy).objectCells.get? doc.objectCells.size =
        some (b.node.objectEntry b.id scene doc.parts.size) :=
    Cells.get?_add_self _ _
  obtain ⟨object, hget, hframe⟩ := hc.later.objects _ _ hnew
  have hown : OwnObject doc.objectCells.size true inner
      (doc.addPlace.addObject n (b.node.objectEntry b.id scene doc.parts.size) (b.node.get .selected).truthy) := by
    refine ⟨hsize, ?_⟩
    rw [hb.effect.get_object, if_pos hk]
    simp
  refine ⟨object, scene, hscene, ?_, hframe, ?_, ?_, ?_⟩
  · rw [hs.objects _ (Nat.le_refl _) (Nat.lt_of_lt_of_le hsize hc.later.objects.size_le), hget]
  · have h := (selectedPicture_channel doc.objectCells.size).fills hc hown
    simp only [hget, hnew, Option.map_some, Option.getD_some] at h
    rw [h, foldl_last]
    rfl
  · have h := (pictures_channel doc.objectCells.size).fills hc hown
    simp only [hget, hnew, Option.map_some, Option.getD_some] at h
    rw [h, foldl_snoc]
    rfl
  · have h := (sounds_channel doc.objectCells.size).fills hc hown
    simp only [hget, hnew, Option.map_some, Option.getD_some] at h
    rw [h, foldl_snoc]
    rfl

/-- The cell of a function is complete when its children have been filled in. -/
theorem Contributes.function_settled (hb : Contributes scope n doc b (some inner) doc₁)
    (hc : Fills inner b.children (n + 1) doc₁ n₂ doc₂) (hs : doc.Settled doc₂ fin) (hk : b.kind = .function) :
    ∃ function, fin.functionCells.get? doc.functionCells.size = some function ∧
      function.frame = b.node.functionEntry b.id doc.parts.size ∧ function.locals.values = b.locals := by
  obtain ⟨hout, rfl⟩ := hb.effect.of_function hk
  have hsize : doc.functionCells.size <
      (doc.addPlace.addFunction n (b.node.functionEntry b.id doc.parts.size)).functionCells.size := by
    simp [addFunction, addPlace]
  have hnew : (doc.addPlace.addFunction n (b.node.functionEntry b.id doc.parts.size)).functionCells.get?
      doc.functionCells.size = some (b.node.functionEntry b.id doc.parts.size) :=
    Cells.get?_add_self _ _
  obtain ⟨function, hget, hframe⟩ := hc.later.functions _ _ hnew
  have hown : OwnFunction doc.functionCells.size b.id true inner
      (doc.addPlace.addFunction n (b.node.functionEntry b.id doc.parts.size)) := by
    refine ⟨by rw [hnew]; rfl, ?_⟩
    rw [hb.effect.get_function, if_neg (by rw [hk]; decide), if_pos hk]
    simp
  refine ⟨function, ?_, hframe, ?_⟩
  · rw [hs.functions _ (Nat.le_refl _) (Nat.lt_of_lt_of_le hsize hc.later.functions.size_le), hget]
  · have h := (locals_channel doc.functionCells.size b.id).fills hc hown
    simp only [hget, hnew, Option.map_some, Option.getD_some] at h
    rw [h, foldl_snoc]
    rfl

/-- Inside an object its own pictures and sounds are known, and what is known everywhere. -/
theorem Contributes.knows_object (hb : Contributes scope n doc b (some inner) doc₁)
    (hc : Fills inner b.children (n + 1) doc₁ n₂ doc₂) (hs : doc.Settled doc₂ fin) (hk : b.kind.isObject = true)
    (hglobals : fin.candidates .globals = names.globals) (hobjects : fin.candidates .objects = names.objects) :
    fin.Knows (b.namesBelow names) inner := by
  have hobject := hb.effect.get_object
  rw [if_pos hk] at hobject
  obtain ⟨object, -, -, hget, -, -, hp, hsd⟩ := hb.object_settled hc hs hk
  rw [Branch.namesBelow, if_pos hk]
  refine ⟨hglobals, hobjects, ?_, ?_⟩
  · intro i hi
    cases hobject.symm.trans hi
    simp [candidates, hget, hp]
  · intro i hi
    cases hobject.symm.trans hi
    simp [candidates, hget, hsd]

/-- Below a node the names mean what the tree says. -/
theorem Document.Knows.below (h : fin.Knows names scope) (hb : Contributes scope n doc b (some inner) doc₁)
    (hc : Fills inner b.children (n + 1) doc₁ n₂ doc₂) (hs : doc.Settled doc₂ fin) :
    fin.Knows (b.namesBelow names) inner := by
  by_cases hk : b.kind.isObject = true
  · exact hb.knows_object hc hs hk h.globals h.objects
  · have hobject := hb.effect.get_object
    rw [if_neg hk] at hobject
    rw [Branch.namesBelow, if_neg hk]
    exact h.inner hobject

/-- An object of a finished document is as the tree describes it. -/
structure Document.ShowsObject (fin : Document) (object : ObjectEntry) (plan : ObjectPlan) : Prop where
  head : object.toObjectHead = plan.toObjectHead
  entity : object.entity = plan.entity
  pictures : object.pictures.values = plan.pictures
  sounds : object.sounds.values = plan.sounds
  script : (fin.slotValue object.blocks).Reads fin.Right (.slot plan.script)

/-- A function of a finished document is as the tree describes it. -/
structure Document.ShowsFunction (fin : Document) (function : FunctionEntry) (plan : FunctionPlan) : Prop where
  head : function.toFunctionHead = plan.toFunctionHead
  locals : function.locals.values = plan.locals
  content : (fin.slotValue function.content).Reads fin.Right (.slot plan.content)

/-- What the first place inside a node holds in the end reads as the statements below the node. -/
theorem Fills.slotValue_reads (hc : Fills inner forest n doc₁ n' doc') (hs : doc.Settled doc' fin) (hh : fin.Honest)
    (hk : fin.Knows names inner) (hg : Tree.AllGiven forest) (hl : doc.Later doc₁)
    (hplace : inner.get .statements = some (.place doc.parts.size)) (hparts : doc₁.parts = doc.addPlace.parts) :
    (fin.slotValue doc.parts.size).Reads fin.Right (.slot (Tree.partsOf names forest).statements) := by
  have hsize : doc₁.parts.size = doc.parts.size + 1 := by
    rw [hparts]
    simp [addPlace]
  have hnew : doc₁.held doc.parts.size = [] := by
    have h := held_addPlace_self doc
    unfold held at h ⊢
    rw [hparts, h]
  have hle := hc.later.parts.size_le
  obtain ⟨hfin, hheld⟩ := hs.new_lt (Nat.le_refl _) (by omega)
  obtain ⟨depth, hdepth⟩ : ∃ depth, fin.parts.size = depth + 1 := ⟨fin.parts.size - 1, by omega⟩
  unfold slotValue
  rw [hdepth]
  exact (hc.adds (hs.after hl) hh hk hg).statements_read hplace hnew hheld (by omega)

/-- Only an object comes to the objects of a document. -/
theorem Contributes.objects_eq (hb : Contributes scope n doc b out doc₁) (hk : b.kind.isObject = false) :
    doc₁.objects.values = doc.objects.values := by
  cases hb.effect with
  | object hk' =>
    rw [hk] at hk'
    cases hk'
  | project hk' =>
    rw [hb.blank hk']
    rfl
  | _ => rfl

/-- Only a function comes to the functions of a document. -/
theorem Contributes.functions_eq (hb : Contributes scope n doc b out doc₁) (hk : b.kind ≠ .function) :
    doc₁.functions.values = doc.functions.values := by
  cases hb.effect with
  | function hk' => exact absurd hk' hk
  | project hk' =>
    rw [hb.blank hk']
    rfl
  | _ => rfl

/-- A node without a scope for children is no object. -/
theorem Effect.isObject_of_leaf (h : Effect scope n doc b none doc') : b.kind.isObject = false := by
  cases hk : b.kind.isObject with
  | false => rfl
  | true =>
    obtain ⟨_, -, hout, -⟩ := h.of_isObject hk
    cases hout

/-- A node without a scope for children is no function. -/
theorem Effect.ne_function_of_leaf (h : Effect scope n doc b none doc') : b.kind ≠ .function := by
  intro hk
  cases (h.of_function hk).1

/-- The next object has the next number. -/
theorem Contributes.objects_of_isObject (hb : Contributes scope n doc b out doc₁) (hk : b.kind.isObject = true) :
    doc₁.objects.values = doc.objects.values ++ [doc.objectCells.size] := by
  obtain ⟨_, -, -, rfl⟩ := hb.effect.of_isObject hk
  exact hb.fresh.below.objects.values_insert _

/-- The next function has the next number. -/
theorem Contributes.functions_of_function (hb : Contributes scope n doc b out doc₁) (hk : b.kind = .function) :
    doc₁.functions.values = doc.functions.values ++ [doc.functionCells.size] := by
  obtain ⟨-, rfl⟩ := hb.effect.of_function hk
  exact hb.fresh.below.functions.values_insert _

/-- The ids and names of the objects of a forest. -/
theorem objectNames_listing :
    Listing fin (fun doc => doc.objects.values)
      (fun i p => ∃ object, fin.objectCells.get? i = some object ∧ (object.id, object.name) = p) (fun _ _ => ())
      (fun _ => Branch.objectName?) fun _ _ => True where
  leaf := by
    intro _ scope n doc b doc₁ hb
    have hk := hb.effect.isObject_of_leaf
    exact ⟨hb.objects_eq hk, by rw [Branch.objectName?, hk]; rfl⟩
  branch := by
    intro _ scope inner n n₂ doc b doc₁ doc₂ _ hb hc hs _
    refine ⟨?_, trivial⟩
    unfold Branch.objectName?
    split
    · next hk =>
      obtain ⟨object, scene, -, hget, hframe, -⟩ := hb.object_settled hc hs hk
      have hid : object.frame.id = b.id := by rw [hframe]; rfl
      have hname : object.frame.name = b.node.get .name := by rw [hframe]; rfl
      exact ⟨_, hb.objects_of_isObject hk, .cons ⟨object, hget, Prod.ext hid hname⟩ .nil⟩
    · next hk =>
      rw [Bool.not_eq_true] at hk
      exact ⟨[], by rw [hb.objects_eq hk, List.append_nil], .nil⟩

/-- The objects of a forest, each on the nearest scene above. -/
theorem objects_listing (hh : fin.Honest) (hglobals : fin.candidates .globals = names.globals)
    (hobjects : fin.candidates .objects = names.objects) :
    Listing fin (fun doc => doc.objects.values)
      (fun i plan => ∃ object, fin.objectCells.get? i = some object ∧ fin.ShowsObject object plan) Branch.sceneBelow
      (Branch.object? names) fun scene scope => ∀ id, scope.get .sceneId = some id → id = scene where
  leaf := by
    intro _ scope n doc b doc₁ hb
    have hk := hb.effect.isObject_of_leaf
    exact ⟨hb.objects_eq hk, by rw [Branch.object?, hk]; rfl⟩
  branch := by
    intro scene scope inner n n₂ doc b doc₁ doc₂ hR hb hc hs hg
    refine ⟨?_, ?_⟩
    · unfold Branch.object?
      split
      · next hk =>
        obtain ⟨object, scene', hscene, hget, hframe, hselected, hpictures, hsounds⟩ := hb.object_settled hc hs hk
        cases hR scene' hscene
        refine ⟨_, hb.objects_of_isObject hk, .cons ⟨object, hget, ?_⟩ .nil⟩
        have hknows := hb.knows_object hc hs hk hglobals hobjects
        have hhead : object.toObjectHead =
            { object.frame.toObjectHead with selectedPicture := object.selectedPicture } := rfl
        have hentity : object.entity = object.frame.entity := rfl
        have hblocks : object.frame.blocks = doc.parts.size := by rw [hframe]; rfl
        refine ⟨?_, ?_, hpictures, hsounds, ?_⟩
        · rw [hhead, hframe, hselected]
          rfl
        · rw [hentity, hframe]
          rfl
        · obtain ⟨_, -, hout, rfl⟩ := hb.effect.of_isObject hk
          rw [show object.blocks = doc.parts.size from hblocks]
          refine hc.slotValue_reads hs hh hknows hg hb.effect.later ?_ rfl
          rw [Option.some_inj.mp hout]
          simp [NodeScope.insideObject]
      · next hk =>
        rw [Bool.not_eq_true] at hk
        exact ⟨[], by rw [hb.objects_eq hk, List.append_nil], .nil⟩
    · intro id hid
      rw [hb.effect.get_sceneId] at hid
      unfold Branch.sceneBelow
      split at hid
      · next hk =>
        rw [if_pos hk]
        exact (Option.some_inj.mp hid).symm
      · next hk =>
        rw [if_neg hk]
        exact hR id hid

/-- The functions of a forest, with what names mean where they stand. -/
theorem functions_listing (hh : fin.Honest) :
    Listing fin (fun doc => doc.functions.values)
      (fun i plan => ∃ function, fin.functionCells.get? i = some function ∧ fin.ShowsFunction function plan)
      Branch.namesBelow Branch.function? (fun names scope => fin.Knows names scope) where
  leaf := by
    intro _ scope n doc b doc₁ hb
    have hk := hb.effect.ne_function_of_leaf
    exact ⟨hb.functions_eq hk, if_neg hk⟩
  branch := by
    intro names scope inner n n₂ doc b doc₁ doc₂ hR hb hc hs hg
    refine ⟨?_, hR.below hb hc hs⟩
    unfold Branch.function?
    split
    · next hk =>
      obtain ⟨function, hget, hframe, hlocals⟩ := hb.function_settled hc hs hk
      refine ⟨_, hb.functions_of_function hk, .cons ⟨function, hget, ?_⟩ .nil⟩
      have hhead : function.toFunctionHead = function.frame.toFunctionHead := rfl
      have hcontent : function.frame.content = doc.parts.size := by rw [hframe]; rfl
      refine ⟨?_, hlocals, ?_⟩
      · rw [hhead, hframe]
        rfl
      · have hknows := hR.below hb hc hs
        rw [Branch.namesBelow, if_neg (by rw [hk]; decide)] at hknows
        obtain ⟨hout, rfl⟩ := hb.effect.of_function hk
        rw [show function.content = doc.parts.size from hcontent]
        refine hc.slotValue_reads hs hh hknows hg hb.effect.later ?_ rfl
        rw [Option.some_inj.mp hout]
        simp [NodeScope.insideFunction]
    · next hk => exact ⟨[], by rw [hb.functions_eq hk, List.append_nil], .nil⟩

end

end SceneTree
