import SceneTree.Proofs.Translation.Head
import SceneTree.Proofs.Translation.Listing

/-!
# A compiled document is what the tree says

A tree that is compiled has its nodes named and its document filled. What the filling leaves is compared with the plan
of the named tree, part by part; the layout of the document is then that of the plan, whether references were read or
not.
-/

namespace SceneTree

namespace Attempt

variable {σ α β : Type} {I : σ → Prop}

/-- What mirrors an attempt mirrors what that attempt comes to from some state. -/
theorem Mirrors.ofOutcome {x y : Attempt σ α} (h : x.Mirrors I y) (s : σ) : x.Mirrors I (.ofExcept (y s).1) :=
  ⟨fun s' _ => h.outcome s' s, h.keeps⟩

/-- Attempts in a row mirror computations in a row. -/
theorem Mirrors.bindOutcome {x : Attempt σ α} {o : Except Fault α} {f : α → Attempt σ β} {g : α → Except Fault β}
    (h : x.Mirrors I (.ofExcept o)) (hf : ∀ a, (f a).Mirrors I (.ofExcept (g a))) :
    (x >>= f).Mirrors I (.ofExcept (o >>= g)) := by
  have hbind : (Attempt.ofExcept (o >>= g) : Attempt σ β) =
      Attempt.ofExcept o >>= fun a => Attempt.ofExcept (g a) := by
    funext s
    cases o <;> rfl
  rw [hbind]
  exact h.bind hf

end Attempt

namespace Document

variable {doc : Document} {I : Readings → Prop}

/-- Layouts one after the other mirror layouts that are made by themselves. -/
theorem layoutEach_mirrors {α β : Type} {Q : α → β → Prop} {layout : α → Attempt Readings Value}
    {layout' : β → Except Fault Value} (hl : ∀ a b, Q a b → (layout a).Mirrors I (.ofExcept (layout' b)))
    {as : List α} {bs : List β} (h : List.Forall₂ Q as bs) :
    (layoutEach layout as).Mirrors I (.ofExcept (bs.mapM layout')) := by
  induction h with
  | nil => exact .pure []
  | cons hab _ ih =>
    rw [layoutEach, List.mapM_cons]
    exact (hl _ _ hab).bindOutcome fun v => ih.bindOutcome fun vs => .pure (v :: vs)

/-- The layout of an object is that of its plan. -/
theorem ShowsObject.layout {object : ObjectEntry} {plan : ObjectPlan} (h : doc.ShowsObject object plan) :
    (doc.objectLayout object).Mirrors doc.Right (.ofExcept plan.layout) := by
  unfold objectLayout ObjectPlan.layout Document.script
  rw [h.head, h.entity, h.pictures, h.sounds]
  exact (h.script.dump.ofOutcome []).bindOutcome fun _ => .pure _

/-- The layout of a function is that of its plan. -/
theorem ShowsFunction.layout {function : FunctionEntry} {plan : FunctionPlan} (h : doc.ShowsFunction function plan) :
    (doc.functionLayout function).Mirrors doc.Right (.ofExcept plan.layout) := by
  unfold functionLayout FunctionPlan.layout Document.content
  rw [h.head, h.locals]
  exact (h.content.dump.ofOutcome []).bindOutcome fun _ => .pure _

/-- A document is what a plan says: part by part, with scripts that read as those of the plan. -/
structure Shows (doc : Document) (plan : Plan) : Prop where
  head : doc.head = plan.head
  scenes : doc.scenes.values = plan.scenes
  objects : List.Forall₂ doc.ShowsObject doc.objectEntries plan.objects
  globals : doc.globals.values = plan.globals
  messages : doc.messages.values = plan.messages
  functions : List.Forall₂ doc.ShowsFunction doc.functionEntries plan.functions
  tables : doc.tables.values = plan.tables

/-- The layout of a document is that of its plan. -/
theorem Shows.layout {plan : Plan} (h : doc.Shows plan)
    (ht : ∀ table ∈ plan.tables, (Value.map table).isGiven = true) :
    doc.layout.Mirrors doc.Right (.ofExcept plan.layout) := by
  have htables : List.Forall₂ (fun a b => a = b ∧ (Value.map a).isGiven = true) doc.tables.values plan.tables := by
    rw [h.tables]
    exact List.forall₂_same.mpr fun table hm => ⟨rfl, ht table hm⟩
  unfold Document.layout Plan.layout
  rw [h.head, h.scenes, h.globals, h.messages]
  refine (layoutEach_mirrors (fun _ _ ho => ho.layout) h.objects).bindOutcome fun _ => ?_
  refine (layoutEach_mirrors (fun _ _ hf => hf.layout) h.functions).bindOutcome fun _ => ?_
  refine (layoutEach_mirrors (fun a b hab => ?_) htables).bindOutcome fun _ => .pure _
  obtain ⟨rfl, hg⟩ := hab
  exact (Value.Reads.self hg).ofOutcome []

end Document

/-- Cells that are as some items say, taken out of their numbers. -/
theorem forall₂_filterMap {α β γ : Type} {f : γ → Option α} {Q : α → β → Prop} {is : List γ} {bs : List β}
    (h : List.Forall₂ (fun i b => ∃ a, f i = some a ∧ Q a b) is bs) : List.Forall₂ Q (is.filterMap f) bs := by
  induction h with
  | nil => exact .nil
  | cons hib _ ih =>
    obtain ⟨a, ha, hQ⟩ := hib
    rw [List.filterMap_cons, ha]
    exact .cons hQ ih

section

open Document

variable {n n' : Handle} {doc doc' : Document} {forest : List (Tree Value)}

/-- The ids and names of the variables of a forest. -/
theorem globalNames_channel :
    Channel (fun doc => doc.globals.values.map fun e => (e.id, e.name)) snoc (fun _ _ => ())
      (fun _ => Branch.variableName?) fun _ _ _ => True where
  gives := by
    intro _ scope n doc b out doc₁ _ h
    cases h.effect with
    | global hk =>
      rw [Branch.variableName?, if_pos hk]
      simp only [addVariable, h.fresh.below.globals.values_insert, List.map_append]
      rfl
    | project hk =>
      rw [Branch.variableName?, if_neg (by rw [hk]; decide), h.blank hk]
      rfl
    | _ hk =>
      rw [Branch.variableName?, if_neg (by intro he; rw [he] at hk; cases hk)]
      rfl
  inner := fun _ _ => trivial
  later := fun _ _ => trivial

/-- Nothing but a document is bound at the root. -/
theorem get_root_of_ne {place : Place} (h : place ≠ .root) : NodeScope.root.get place = none :=
  (NodeScope.Within.root_scope .empty).bare rfl place h

/-- A document that a forest has filled is what the forest says, also after references kept what they found. -/
theorem Fills.shows (h : Fills .root forest n .empty n' doc') (hg : Tree.AllGiven forest)
    {references : Cells (Target × Reference)}
    (hl : doc'.references.Later (fun (target, r) => (target, r.kind, r.name)) references)
    (hh : Honest { doc' with references := references }) :
    Shows { doc' with references := references } (Tree.plan forest) := by
  have hs : Settled .empty doc' { doc' with references := references } :=
    ⟨fun _ _ _ => rfl, fun _ _ _ => rfl, fun _ _ _ => rfl, hl⟩
  have hglobals : doc'.globals.values.map (fun e => (e.id, e.name)) = Tree.each Branch.variableName? forest :=
    (globalNames_channel.fills h (c := ()) trivial).trans (foldl_snoc _ _)
  have hobjects : doc'.objectEntries.map (fun e => (e.id, e.name)) = Tree.each Branch.objectName? forest := by
    obtain ⟨cells, hcells, hQ⟩ := objectNames_listing.fills h hs hg (c := ()) trivial
    have hcells : doc'.objects.values = cells := hcells
    unfold objectEntries
    rw [hcells]
    exact List.forall₂_eq_eq_eq ▸ List.forall₂_map_left_iff.mpr (forall₂_filterMap hQ)
  have hknows : Knows { doc' with references := references } (Tree.names forest) .root := by
    refine ⟨hglobals, hobjects, ?_, ?_⟩
    · intro i hi
      rw [get_root_of_ne (by decide)] at hi
      cases hi
    · intro i hi
      rw [get_root_of_ne (by decide)] at hi
      cases hi
  have hscene : ∀ id, NodeScope.root.get .sceneId = some id → id = Value.null := by
    intro id hid
    rw [get_root_of_ne (by decide)] at hid
    cases hid
  refine ⟨h.head, ?_, ?_, ?_, ?_, ?_, ?_⟩
  · exact (scenes_channel.fills h (c := ()) trivial).trans (foldl_snoc _ _)
  · obtain ⟨cells, hcells, hQ⟩ := (objects_listing hh hknows.globals hknows.objects).fills h hs hg hscene
    have hcells : doc'.objects.values = cells := hcells
    unfold objectEntries
    rw [hcells]
    exact forall₂_filterMap hQ
  · have howner : Document.empty.ownerIn .root = .null := by
      unfold ownerIn
      rw [get_root_of_ne (by decide)]
    exact (globals_channel.fills h ⟨.root_scope _, howner⟩).trans (foldl_snoc _ _)
  · exact (messages_channel.fills h (c := ()) trivial).trans (foldl_snoc _ _)
  · obtain ⟨cells, hcells, hQ⟩ := (functions_listing hh).fills h hs hg hknows
    have hcells : doc'.functions.values = cells := hcells
    unfold functionEntries
    rw [hcells]
    exact forall₂_filterMap hQ
  · exact (tables_channel.fills h (c := ()) trivial).trans (foldl_snoc _ _)

/-- No reference has found anything yet. -/
def Document.Unread (doc : Document) : Prop := doc.references.All fun p => p.2.found = none

/-- References that have found nothing keep nothing. -/
theorem Document.Unread.honest (h : doc.Unread) : doc.Honest := by
  intro i target r id hr hf
  rw [h i (target, r) hr] at hf
  cases hf

/-- A new reference has found nothing. -/
theorem Effect.unread {scope : NodeScope} {b : Branch} {out : Option NodeScope} (h : Effect scope n doc b out doc')
    (hd : doc.Unread) : doc'.Unread := by
  cases h with
  | named => exact Cells.All.add hd rfl
  | _ => exact hd

/-- While a document is filled, no reference is read. -/
theorem Fills.unread {scope : NodeScope} (h : Fills scope forest n doc n' doc') (hd : doc.Unread) : doc'.Unread := by
  induction h with
  | nil => exact hd
  | literal v _ ih => exact ih hd
  | leaf hb _ _ ih => exact ih (hb.effect.unread hd)
  | branch hb _ _ ihc ihr => exact ihr (ihc (hb.effect.unread hd))

/-- A document that a forest has filled, and in which nothing was read yet, is what the forest says. -/
theorem Fills.shows_plan (h : Fills .root forest n .empty n' doc') (hg : Tree.AllGiven forest) :
    Shows doc' (Tree.plan forest) :=
  h.shows hg (.refl _ _) (h.unread (.empty _)).honest

/-- The layout of a document that a forest has filled comes to the layout of the plan. -/
theorem Fills.layout_eq (h : Fills .root forest n .empty n' doc') (hg : Tree.AllGiven forest) :
    (doc'.layout []).1 = (Tree.plan forest).layout :=
  ((h.shows_plan hg).layout hg.tables).outcome [] []

end

namespace Evaluating

/-- An evaluation that has just begun: nothing has happened but a report. -/
def begun (supply : IdSupply) (notice : Notice) : Evaluation := { Evaluation.start supply with notices := [notice] }

theorem tidy_begun (supply : IdSupply) (notice : Notice) : (begun supply notice).Tidy := by
  refine ⟨?_, .empty _⟩
  intro handle id hi
  cases hi

/-- Compiling a tree is evaluating it and looking at the document that comes of it. -/
theorem compileTree_apply (tree : Tree Nat) (supply : IdSupply) :
    ∃ notice, compileTree tree supply =
      match evaluate tree .root (begun supply notice) with
      | (.error fault, e) => (.error fault, e)
      | (.ok _, e) =>
        match e.document.populatedBy with
        | [] => (.error .missingRoot, e)
        | [_] =>
          match e.document.checkSelectedPictures with
          | .error fault => (.error fault, e)
          | .ok _ =>
            match Document.text .spaced e.document with
            | (.error fault, doc) => (.error fault, { e with document := doc })
            | (.ok _, doc) =>
              (.ok doc, { e with
                document := doc
                notices := e.notices ++
                  [.compiled e.document.head.name e.met.length e.document.scenes.size e.document.objects.size] })
        | _ => (.error .duplicateRoot, e) := by
  cases tree with
  | literal v =>
    refine ⟨.compiling v.typeName, ?_⟩
    rw [evaluate]
    rfl
  | node mark data children =>
    refine ⟨.compiling data.called, ?_⟩
    have hbegun : ∀ notice, notify notice (Evaluation.start supply) = (.ok (), begun supply notice) := fun _ => rfl
    unfold compileTree compile
    simp only [Attempt.bind_apply, hbegun]
    rcases evaluate (.node mark data children) .root (begun supply (.compiling data.called)) with ⟨_ | _, e⟩
    · rfl
    · simp only [Attempt.state_apply]
      rcases hp : e.document.populatedBy with _ | ⟨handle, _ | ⟨_, _⟩⟩
      · rfl
      · simp only [Attempt.pure_apply]
        cases hc : e.document.checkSelectedPictures with
        | error fault => rfl
        | ok _ =>
          simp only [Attempt.bind_apply, Attempt.ofExcept_apply, write, onDocument]
          rcases Document.text .spaced e.document with ⟨_ | text, doc⟩
          · rfl
          · rfl
      · rfl

/-- A tree that is compiled has been evaluated into a document with one project, whose objects show pictures of their
own and which has a text. -/
theorem stages_of_compileTree {tree : Tree Nat} {supply : IdSupply} {doc : Document} {e : Evaluation}
    (h : compileTree tree supply = (.ok doc, e)) :
    ∃ notice e₁ text, evaluate tree .root (begun supply notice) = (.ok (), e₁) ∧
      e = { e₁ with document := doc, notices := e.notices } ∧ e₁.document.populatedBy.length = 1 ∧
      e₁.document.checkSelectedPictures = .ok () ∧ Document.text .spaced e₁.document = (.ok text, doc) := by
  obtain ⟨notice, hcompile⟩ := compileTree_apply tree supply
  rw [hcompile] at h
  rcases he : evaluate tree .root (begun supply notice) with ⟨_ | _, e₁⟩
  · rw [he] at h
    cases h
  · rw [he] at h
    simp only at h
    split at h
    · cases h
    · next handle hp =>
      split at h
      · cases h
      · next hcheck =>
        split at h
        · cases h
        · next text doc' htext =>
          obtain ⟨rfl, rfl⟩ : doc' = doc ∧ _ = e := by simpa using h
          exact ⟨notice, e₁, text, he, rfl, by rw [hp]; rfl, hcheck, htext⟩
    · cases h

/-- A tree that is compiled has been evaluated into a document with one project and a layout, and the document then
keeps what its references find. -/
theorem evaluate_of_compileTree {tree : Tree Nat} {supply : IdSupply} {doc : Document} {e : Evaluation}
    (h : compileTree tree supply = (.ok doc, e)) :
    ∃ notice e₁ layout readings, evaluate tree .root (begun supply notice) = (.ok (), e₁) ∧
      e = { e₁ with document := doc, notices := e.notices } ∧ e₁.document.populatedBy.length = 1 ∧
      e₁.document.layout [] = (.ok layout, readings) ∧ doc = e₁.document.keep readings := by
  obtain ⟨notice, e₁, text, he, hleft, hone, -, htext⟩ := stages_of_compileTree h
  unfold Document.text Document.reading at htext
  rcases hl : e₁.document.layout [] with ⟨_ | layout, readings⟩
  · simp [Attempt.bind_apply, hl] at htext
  · simp [Attempt.bind_apply, hl] at htext
    exact ⟨notice, e₁, layout, readings, he, hleft, hone, hl, htext.2.symm⟩

/-- A tree of different nodes that is compiled fills the document after its nodes have been named, and the document then
keeps what its references find. -/
theorem fills_of_compileTree {tree : Tree Nat} {supply : IdSupply} {doc : Document} {e : Evaluation}
    (hn : (tree.nodes.map (·.1)).Nodup) (h : compileTree tree supply = (.ok doc, e)) :
    ∃ t n doc₀ layout readings, tree.named supply = (.ok t, e.supply) ∧ Fills .root [t] 0 .empty n doc₀ ∧
      doc₀.populatedBy.length = 1 ∧ doc₀.layout [] = (.ok layout, readings) ∧ doc = doc₀.keep readings := by
  obtain ⟨notice, e₁, layout, readings, he, hleft, hone, hl, hdoc⟩ := evaluate_of_compileTree h
  have hsupply : e.supply = e₁.supply := by rw [hleft]
  obtain ⟨t, ht, hfill, -, -⟩ :=
    fills_of_evaluate tree he hn (tidy_begun supply notice) (.root_scope _) (Nat.le_of_eq hone)
  exact ⟨t, _, _, layout, readings, hsupply ▸ ht, hfill, hone, hl, hdoc⟩

/-- A tree of different nodes that is compiled gives a document that shows the plan of the tree, although its references
have kept what they found, and the plan has a layout. -/
theorem shows_of_compileTree {tree : Tree Nat} {supply : IdSupply} {doc : Document} {e : Evaluation}
    (hn : (tree.nodes.map (·.1)).Nodup) (hg : tree.Given) (h : compileTree tree supply = (.ok doc, e)) :
    ∃ t layout, tree.named supply = (.ok t, e.supply) ∧ doc.Honest ∧ doc.Shows (Tree.plan [t]) ∧
      doc.layout.Mirrors doc.Right (.ofExcept (Tree.plan [t]).layout) ∧ (Tree.plan [t]).layout = .ok layout := by
  obtain ⟨t, n, doc₀, layout, readings, ht, hfill, -, hl, rfl⟩ := fills_of_compileTree hn h
  have hgiven : Tree.AllGiven [t] := by
    rw [Tree.AllGiven, Tree.AllGiven]
    exact ⟨hg.named ht, trivial⟩
  -- before the references keep anything
  have hplan : (Tree.plan [t]).layout = .ok layout := by
    rw [← hfill.layout_eq hgiven, hl]
  -- and after that
  have hright : doc₀.Right readings := by
    have hkeeps := ((hfill.shows_plan hgiven).layout hgiven.tables).keeps [] (.nil doc₀)
    rw [hl] at hkeeps
    exact hkeeps
  have hhonest : (doc₀.keep readings).Honest := (hfill.unread (.empty _)).honest.keep hright
  have hshows : (doc₀.keep readings).Shows (Tree.plan [t]) :=
    hfill.shows hgiven (doc₀.references_keep readings) hhonest
  exact ⟨t, layout, ht, hhonest, hshows, hshows.layout hgiven.tables, hplan⟩

/-- A tree of different nodes that is compiled gives, once its nodes have their ids, the document that the tree
describes: part by part, and with the layout of the plan. -/
theorem compileTree_shows_plan {tree : Tree Nat} {supply : IdSupply} {doc : Document} {e : Evaluation}
    (hn : (tree.nodes.map (·.1)).Nodup) (hg : tree.Given) (h : compileTree tree supply = (.ok doc, e)) :
    ∃ t layout, tree.named supply = (.ok t, e.supply) ∧ doc.Shows (Tree.plan [t]) ∧
      (doc.layout []).1 = .ok layout ∧ (Tree.plan [t]).layout = .ok layout := by
  obtain ⟨t, layout, ht, -, hshows, hlayout, hplan⟩ := shows_of_compileTree hn hg h
  exact ⟨t, layout, ht, hshows, (hlayout.outcome [] []).trans hplan, hplan⟩

/-- A node with some values on it and the defaults of its kind. -/
def plainNode (kind : Kind) (given : List (Field × Value)) : Node :=
  ⟨kind, fun field => (given.lookup field).getD (kind.defaultOf field)⟩

/-- A sprite shows a picture, and its script names a variable that comes only after it. -/
def forwardNaming : Tree Nat :=
  .node 0 (plainNode .project [(.name, .str "p")])
    [.node 1 (plainNode .scene [(.name, .str "s")])
      [.node 2 (plainNode .sprite [(.name, .str "o"), (.selected, .bool true)])
        [.node 3 (plainNode .picture [(.name, .str "i"), (.selected, .bool true)]) [],
          .node 4 (plainNode .statement [])
            [.node 5 (plainNode .script [(.type, .str "t")])
              [.node 6 (plainNode .variableParam [(.name, .str "v")]) []]]]],
      .node 7 (plainNode .variable [(.name, .str "v")]) []]

/-- The sprite is compiled as it is described. -/
theorem compileTree_shows_plan_forwardNaming :
    ∃ doc e t layout, (forwardNaming.nodes.map (·.1)).Nodup ∧ forwardNaming.Given ∧
      compileTree forwardNaming ⟨.empty, .counting []⟩ = (.ok doc, e) ∧
      forwardNaming.named ⟨.empty, .counting []⟩ = (.ok t, e.supply) ∧ doc.Shows (Tree.plan [t]) ∧
      (doc.layout []).1 = .ok layout ∧ (Tree.plan [t]).layout = .ok layout := by
  have hn : (forwardNaming.nodes.map (·.1)).Nodup := by decide
  have hg : forwardNaming.Given := by
    simp only [forwardNaming, Tree.Given, Tree.AllGiven, and_true]
    refine ⟨?_, ⟨?_, ?_, ?_, ?_, ?_, ?_⟩, ?_⟩ <;> exact fun field => by cases field <;> rfl
  have hok : (compileTree forwardNaming ⟨.empty, .counting []⟩).1.isOk = true := by decide +kernel
  rcases hc : compileTree forwardNaming ⟨.empty, .counting []⟩ with ⟨_ | doc, e⟩
  · rw [hc] at hok
    cases hok
  · obtain ⟨t, layout, ht, hshows, hl, hp⟩ := compileTree_shows_plan hn hg hc
    exact ⟨doc, e, t, layout, hn, hg, rfl, ht, hshows, hl, hp⟩

end Evaluating

end SceneTree
