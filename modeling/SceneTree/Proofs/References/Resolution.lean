import SceneTree.Proofs.Containment.Acceptance
import SceneTree.Proofs.Identity.Taken
import SceneTree.Proofs.References.Following
import SceneTree.Proofs.References.Redraft

/-!
# What names come to

A name on a parameter comes to the id of the first node of that name, wherever the node stands, and compiling fails for
a name if and only if it is the name of nothing. Both are said by comparison with the settled tree, in which no name is
left: if that one is compiled, the names are all that matters.
-/

namespace SceneTree

section

open Branch

variable {ι : Type} {names names₀ : Names} {above : List Branch} {forest : List (Tree Value)}

/-- What every node of some trees offers in its context has a property if all that they offer has it. -/
theorem Tree.everywhere_of_gatherOf {α : Type} {piece : Names → Branch → Option α} {Q : α → Prop}
    (h : ∀ x ∈ gatherOf namesBelow piece (namesBelowAll names₀ above) forest, Q x) :
    EverywhereIn (fun above b => ∀ x, piece (namesBelowAll names₀ above) b = some x → Q x) above forest := by
  induction forest using forest_induction generalizing above with
  | nil => exact everywhereIn_nil
  | literal v rest ih => exact (everywhereIn_literal v).mpr (ih h)
  | node b rest ihc ihr =>
    simp only [mem_gatherOf_node] at h
    exact everywhereIn_node.mpr
      ⟨fun x hx => h x (.inl hx), ihc fun x hx => h x (.inr (.inl hx)), ihr fun x hx => h x (.inr (.inr hx))⟩

/-- Where every name on a parameter is the name of something no name is unresolved. -/
theorem Tree.unresolved_eq_nil (h : EverywhereIn (Resolves (Tree.names forest)) [] forest) :
    unresolved forest = [] := by
  refine List.eq_nil_iff_forall_not_mem.mpr fun p hp => ?_
  obtain ⟨c, above, b, rfl, hb, -, hx⟩ :=
    h.of_mem_gatherOf (R := fun c above => c = namesBelowAll (Tree.names forest) above)
      (fun c above b hc _ _ => by rw [hc]; rfl) rfl hp
  obtain ⟨⟨hk, hn⟩, -⟩ := Option.ite_none_right_eq_some.mp hx
  have hsome := hb hk
  rw [hn] at hsome
  cases hsome

/-- Names mean plain ids everywhere in a forest if all ids in it are plain. -/
theorem Names.Plain.everywhere (h : Tree.EverywhereIn (fun _ b => b.id.isJson = true) above forest)
    (hn : (namesBelowAll names₀ above).Plain) :
    Tree.EverywhereIn (fun above _ => (namesBelowAll names₀ above).Plain) above forest := by
  induction forest using Tree.forest_induction generalizing above with
  | nil => exact Tree.everywhereIn_nil
  | literal v rest ih => exact (Tree.everywhereIn_literal v).mpr (ih ((Tree.everywhereIn_literal v).mp h) hn)
  | node b rest ihc ihr =>
    obtain ⟨-, hc, hr⟩ := Tree.everywhereIn_node.mp h
    exact Tree.everywhereIn_node.mpr ⟨hn, ihc hc (hn.below hc), ihr hr hn⟩

/-- What a name means is plain data if all that it may mean is. -/
theorem Names.Plain.isJson_meant (h : names.Plain) (b : Branch) : (b.meant names).isJson = true := by
  unfold meant
  cases hf : (b.candidates names).firstNamed? (b.node.get .name) with
  | none => rfl
  | some id =>
    obtain ⟨p, hp, rfl⟩ := Option.map_eq_some_iff.mp hf
    exact h.candidates b p (List.mem_of_find?_eq_some hp)

/-- All that is on a parameter that holds a given value is given. -/
theorem Node.isGiven_holding {v : Value} (h : v.isGiven = true) (field : Field) :
    ((Node.holding v).get field).isGiven = true := by
  simp only [holding]
  split
  · exact h
  · rfl

namespace Tree

/-- The value of every parameter in given trees is given. -/
theorem AllGiven.everywhere (h : AllGiven forest) :
    EverywhereIn (fun _ b => (b.node.paramValue (Tree.literals b.children)).isGiven = true) above forest := by
  induction forest using forest_induction generalizing above with
  | nil => exact everywhereIn_nil
  | literal v rest ih =>
    rw [AllGiven] at h
    exact (everywhereIn_literal v).mpr (ih h.2)
  | node b rest ihc ihr =>
    rw [AllGiven, Given] at h
    obtain ⟨⟨hfields, hc⟩, hr⟩ := h
    exact everywhereIn_node.mpr ⟨Node.isGiven_paramValue hfields hc.literals, ihc hc, ihr hr⟩

mutual

/-- A given tree is given also when it has been settled with plain ids. -/
theorem Given.settle {names : Names} : {tree : Tree ι} → tree.Given → names.Plain → (t : Tree Value) →
    {above : List Branch} → Everywhere (fun _ b => b.id.isJson = true) above t → (tree.settle names t).Given
  | .node mark data children, h, hn, .node own other inner, above, ht => by
    rw [Given] at h
    rw [Everywhere] at ht
    rw [Tree.settle]
    split
    · rw [Given, AllGiven]
      exact ⟨Node.isGiven_holding (Value.isGiven_of_isJson _ (hn.isJson_meant _)), trivial⟩
    · rw [Given]
      have hbelow : (namesBelow names ⟨own, data, inner⟩).Plain := hn.below (b := ⟨own, data, inner⟩) ht.2
      exact ⟨h.1, AllGiven.settle h.2 hbelow inner ht.2⟩
  | .node mark data children, h, _, .literal v, _, _ => by
    rw [settle_of_literal]
    exact h
  | .literal v, h, _, t, _, _ => by
    rw [settle_literal]
    exact h

/-- Given trees are given also when they have been settled with plain ids. -/
theorem AllGiven.settle {names : Names} : {forest : List (Tree ι)} → AllGiven forest → names.Plain →
    (ts : List (Tree Value)) → {above : List Branch} → EverywhereIn (fun _ b => b.id.isJson = true) above ts →
    AllGiven (settleAll names forest ts)
  | [], h, _, ts, _, _ => by
    rw [settleAll_nil]
    exact h
  | tree :: rest, h, hn, [], _, _ => by
    rw [settleAll_of_nil]
    exact h
  | tree :: rest, h, hn, u :: us, above, ht => by
    rw [AllGiven] at h
    rw [EverywhereIn] at ht
    rw [settleAll, AllGiven]
    exact ⟨Given.settle h.1 hn u ht.1, AllGiven.settle h.2 hn us ht.2⟩

end

end Tree

end

/-- The text of a document is that of its layout. -/
theorem Document.text_fst (layout : JsonText.Layout) (doc : Document) :
    (Document.text layout doc).1 = (doc.layout []).1 >>= JsonText.text layout := by
  rcases hl : doc.layout [] with ⟨_ | v, readings⟩
  all_goals
    simp only [Document.text, Document.reading, Attempt.bind_apply, hl]
    rfl

/-- The projects on record do not depend on drafts. -/
theorem Document.Redraft.populatedBy {doc doc' : Document} (h : doc.Redraft doc') :
    doc'.populatedBy = doc.populatedBy := by
  obtain ⟨parts, references, -, rfl⟩ := h
  rfl

/-- The pictures that objects show do not depend on drafts. -/
theorem Document.Redraft.checkSelectedPictures {doc doc' : Document} (h : doc.Redraft doc') :
    doc'.checkSelectedPictures = doc.checkSelectedPictures := by
  obtain ⟨parts, references, -, rfl⟩ := h
  rfl

/-- A given tree is given also with ids, as a forest of its own. -/
theorem Tree.Given.allNamed {tree : Tree Nat} {t : Tree Value} {supply supply' : IdSupply} (h : tree.Given)
    (hnamed : tree.named supply = (.ok t, supply')) : AllGiven [t] := by
  rw [AllGiven, AllGiven]
  exact ⟨h.named hnamed, trivial⟩

namespace Evaluating

variable {tree : Tree Nat} {t : Tree Value} {supply supply' : IdSupply} {doc' : Document} {e' : Evaluation}

/-- An evaluation that leaves one project on record has filled the document with the tree that has its ids. -/
theorem fills_of_begun {notice : Notice} {e : Evaluation} (hn : (tree.nodes.map (·.1)).Nodup)
    (hnamed : tree.named supply = (.ok t, supply')) (h : evaluate tree .root (begun supply notice) = (.ok (), e))
    (hone : e.document.populatedBy.length = 1) : ∃ n, Fills .root [t] 0 .empty n e.document := by
  obtain ⟨t₁, ht₁, hfill, -, -⟩ :=
    fills_of_evaluate tree h hn (tidy_begun supply notice) (.root_scope _) (Nat.le_of_eq hone)
  cases hnamed.symm.trans ht₁
  exact ⟨_, hfill⟩

/-- What compiling comes to after a tree has been evaluated into a document with one project, whose objects show
pictures of their own: the text of the document decides. -/
theorem compileTree_of_evaluate (tree : Tree Nat) (supply : IdSupply) :
    ∃ notice, ∀ e₁, evaluate tree .root (begun supply notice) = (.ok (), e₁) → e₁.document.populatedBy.length = 1 →
      e₁.document.checkSelectedPictures = .ok () →
      ∃ doc e, compileTree tree supply = ((Document.text .spaced e₁.document).1.map fun _ => doc, e) := by
  obtain ⟨notice, hcompile⟩ := compileTree_apply tree supply
  refine ⟨notice, fun e₁ he hone hcheck => ?_⟩
  obtain ⟨handle, hpopulated⟩ := List.length_eq_one_iff.mp hone
  rw [hcompile, he]
  simp only [hpopulated, hcheck]
  rcases Document.text .spaced e₁.document with ⟨fault | text, doc⟩
  · exact ⟨doc, _, rfl⟩
  · exact ⟨doc, _, rfl⟩

/-- A tree that is compiled has the layout of its plan, and that layout has a text. -/
theorem layout_of_compileTree {doc : Document} {e : Evaluation} (hn : (tree.nodes.map (·.1)).Nodup) (hg : tree.Given)
    (hnamed : tree.named supply = (.ok t, supply')) (h : compileTree tree supply = (.ok doc, e)) :
    ∃ v text, (Tree.plan [t]).layout = .ok v ∧ (doc.layout []).1 = .ok v ∧ JsonText.text .spaced v = .ok text := by
  obtain ⟨t₁, v, ht₁, -, -, hmirrors, hplan⟩ := shows_of_compileTree hn hg h
  cases hnamed.symm.trans ht₁
  have hv : (doc.layout []).1 = .ok v := (hmirrors.outcome [] []).trans hplan
  obtain ⟨notice, e₁, text, he₁, -, hone, -, htext⟩ := stages_of_compileTree h
  obtain ⟨n, hfill⟩ := fills_of_begun hn hnamed he₁ hone
  have hlayout : (e₁.document.layout []).1 = .ok v := (hfill.layout_eq (hg.allNamed hnamed)).trans hplan
  have hfst := Document.text_fst .spaced e₁.document
  rw [htext, hlayout] at hfst
  exact ⟨v, text, hplan, hv, hfst.symm⟩

/-- The nodes of a tree on which only texts are authored have plain ids. -/
theorem isJson_of_named (ha : ∀ n ∈ tree.nodes, n.2.AuthorsText) (hnamed : tree.named supply = (.ok t, supply')) :
    Tree.EverywhereIn (fun _ b => b.id.isJson = true) [] [t] := by
  have htook : Tree.EverywhereIn (fun _ b => b.Took ∧ b.node.AuthorsText) [] [t] := by
    rw [Tree.EverywhereIn]
    exact ⟨Tree.took_of_named (P := Node.AuthorsText) hnamed ha [], Tree.everywhereIn_nil⟩
  refine htook.mp fun _ b hb => ?_
  obtain ⟨⟨s, s', hid⟩, htext⟩ := hb
  exact (htext.isTextOrNull_of_takeId hid).isJson

/-- What settling needs to know of the nodes of a tree. -/
theorem settles_of_named (hg : tree.Given) (ha : ∀ n ∈ tree.nodes, n.2.AuthorsText)
    (hnamed : tree.named supply = (.ok t, supply'))
    (hp : Tree.EverywhereIn (fun above b => b.kind.isNamedParam = true → b.Placed above ∧ b.Holds) [] [t]) :
    Tree.EverywhereIn (Branch.Settles (fun fault => ∃ p ∈ Tree.unresolved [t], fault = .unresolved p.1 p.2)
      (Tree.names [t])) [] [t] := by
  have hids := isJson_of_named ha hnamed
  have hplain : Tree.EverywhereIn (fun above _ => (Branch.namesBelowAll (Tree.names [t]) above).Plain) [] [t] :=
    Names.Plain.everywhere hids (Tree.names_plain hids)
  have hlost : Tree.EverywhereIn (fun above b => ∀ p,
      b.unresolved? (Branch.namesBelowAll (Tree.names [t]) above) = some p → p ∈ Tree.unresolved [t]) [] [t] :=
    Tree.everywhere_of_gatherOf fun _ hp => hp
  refine (((hp.and hplain).and hlost).and (hg.allNamed hnamed).everywhere).mp ?_
  rintro above b ⟨⟨⟨hp, hplain⟩, hlost⟩, hgiven⟩
  refine ⟨?_, fun hk => (hp hk).2.children_eq_nil hk, hplain.candidates b, fun p hl => ⟨p, hlost p hl, rfl⟩, hgiven⟩
  intro hk
  have hplaced := (hp (by rw [hk]; rfl)).1
  unfold Branch.Placed at hplaced
  rw [hk] at hplaced
  exact hplaced

/-- If a tree is compiled once it has been settled, it fails for a name that is the name of nothing or is compiled to
the same layout. -/
theorem compileTree_of_settled (hn : (tree.nodes.map (·.1)).Nodup) (hg : tree.Given)
    (ha : ∀ n ∈ tree.nodes, n.2.AuthorsText) (hnamed : tree.named supply = (.ok t, supply'))
    (hp : Tree.EverywhereIn (fun above b => b.kind.isNamedParam = true → b.Placed above ∧ b.Holds) [] [t])
    (hs : compileTree (tree.settle (Tree.names [t]) t) supply = (.ok doc', e')) :
    (∃ p ∈ Tree.unresolved [t], ∃ e, compileTree tree supply = (.error (.unresolved p.1 p.2), e)) ∨
      Tree.unresolved [t] = [] ∧
        ∃ doc e, compileTree tree supply = (.ok doc, e) ∧ (doc.layout []).1 = (doc'.layout []).1 := by
  have hids := isJson_of_named ha hnamed
  have hsettles := settles_of_named hg ha hnamed hp
  have hempty := hsettles.mp (Q := fun _ b => b.kind.isNamedParam = true → b.children = []) fun _ _ hb => hb.empty
  rw [Tree.EverywhereIn] at hids hempty hp
  -- the settled tree has been evaluated, and its layout is that of its plan
  obtain ⟨notice', e₁, -, he₁, -, hone, hcheck, -⟩ := stages_of_compileTree hs
  obtain ⟨v, text, hv, hv', htext⟩ := layout_of_compileTree ((Tree.nodes_settle (Tree.names [t]) tree t).nodup hn)
    (hg.settle (Tree.names_plain (isJson_of_named ha hnamed)) t hids.1) (Tree.named_settle hnamed hempty.1) hs
  -- the tree itself is evaluated in the same steps
  obtain ⟨notice, hcompile⟩ := compileTree_of_evaluate tree supply
  have hbegun : (begun supply notice').Redraft (begun supply notice) := ⟨_, _, .refl _, rfl⟩
  obtain ⟨f₁, hf₁, ⟨doc₁, notices, hd, rfl⟩, -⟩ :=
    evaluate_of_settled tree hnamed hp.1 ⟨.root_scope _, by simp⟩ hbegun he₁
  rw [← hd.populatedBy] at hone
  rw [← hd.checkSelectedPictures] at hcheck
  obtain ⟨n, hfill⟩ := fills_of_begun hn hnamed hf₁ hone
  obtain ⟨doc, e, hcompile⟩ := hcompile _ hf₁ hone hcheck
  have hlayout : (doc₁.layout []).1 = (Tree.plan [t]).layout := hfill.layout_eq (hg.allNamed hnamed)
  -- what is left to fail for is a name
  change compileTree tree supply = ((Document.text .spaced doc₁).1.map fun _ => doc, e) at hcompile
  have hfst := (Document.text_fst .spaced doc₁).trans (congrArg (· >>= JsonText.text .spaced) hlayout)
  rcases (Tree.plan_follows hsettles).layout with hsame | ⟨fault, ⟨p, hp, rfl⟩, hbad⟩
  · have hok : (Tree.plan [t]).layout = .ok v := hsame.trans hv
    rw [hok] at hfst
    rw [hfst.trans htext] at hcompile
    obtain ⟨w, -, hw, hw', -⟩ := layout_of_compileTree hn hg hnamed hcompile
    cases hw.symm.trans hok
    have hresolves := Tree.resolves_of_layout (hfill.placed (.root _)) hok
    exact .inr ⟨Tree.unresolved_eq_nil hresolves, doc, e, hcompile, hw'.trans hv'.symm⟩
  · rw [hbad] at hfst
    rw [hfst] at hcompile
    exact .inl ⟨p, hp, e, hcompile⟩

/-- What names come to does not depend on where the nodes with these names stand. Let a tree of different nodes keep all
rules but those for names: its named parameters stand where they may, and it is compiled once plain parameters stand for
them and hold what the names mean (for typed trees `compileTree_settle_accepts_iff` says which rules these are). Then
the tree is refused for an unresolved name if and only if some name on a parameter finds no variable or object of the
whole tree, or no picture or sound of the object around the parameter, and what it is refused for is such a name.
Otherwise it is compiled to the same layout: each named parameter comes to the id of the first node that its name finds.
-/
theorem compileTree_references (hn : (tree.nodes.map (·.1)).Nodup) (hg : tree.Given)
    (ha : ∀ n ∈ tree.nodes, n.2.AuthorsText) (hnamed : tree.named supply = (.ok t, supply'))
    (hp : Tree.EverywhereIn (fun above b => b.kind.isNamedParam = true → b.Placed above ∧ b.Holds) [] [t])
    (hs : compileTree (tree.settle (Tree.names [t]) t) supply = (.ok doc', e')) :
    ((∃ kind name e, compileTree tree supply = (.error (.unresolved kind name), e)) ↔ Tree.unresolved [t] ≠ []) ∧
    (∀ kind name e, compileTree tree supply = (.error (.unresolved kind name), e) →
      (kind, name) ∈ Tree.unresolved [t]) ∧
    (Tree.unresolved [t] = [] →
      ∃ doc e, compileTree tree supply = (.ok doc, e) ∧ (doc.layout []).1 = (doc'.layout []).1) := by
  rcases compileTree_of_settled hn hg ha hnamed hp hs with ⟨p, hmem, e, he⟩ | ⟨hnil, hok⟩
  · have hne : Tree.unresolved [t] ≠ [] := List.ne_nil_of_mem hmem
    refine ⟨⟨fun _ => hne, fun _ => ⟨p.1, p.2, e, he⟩⟩, ?_, fun hnil => absurd hnil hne⟩
    intro kind name e₁ h
    cases he.symm.trans h
    exact hmem
  · obtain ⟨doc, e, he, hlayout⟩ := hok
    have hnever : ∀ kind name e₁, compileTree tree supply ≠ (.error (.unresolved kind name), e₁) := by
      intro kind name e₁ h
      cases he.symm.trans h
    refine ⟨⟨?_, fun hne => absurd hnil hne⟩, fun kind name e₁ h => absurd h (hnever kind name e₁),
      fun _ => ⟨doc, e, he, hlayout⟩⟩
    rintro ⟨kind, name, e₁, h⟩
    exact absurd h (hnever kind name e₁)

/-- The script of a sprite names a variable and an object that come after it, and a picture. The sprite has a picture
`i`, and the other object a picture `j`. -/
def crossNaming (picture : String) : Tree Nat :=
  .node 0 (plainNode .project [(.name, .str "p")])
    [.node 1 (plainNode .scene [(.name, .str "s")])
      [.node 2 (plainNode .sprite [(.name, .str "o")])
        [.node 3 (plainNode .statement [])
          [.node 4 (plainNode .script [(.type, .str "t")])
            [.node 5 (plainNode .variableParam [(.name, .str "v")]) [],
              .node 6 (plainNode .objectParam [(.name, .str "q")]) [],
              .node 7 (plainNode .pictureParam [(.name, .str picture)]) []]],
          .node 8 (plainNode .picture [(.name, .str "i")]) []],
        .node 9 (plainNode .sprite [(.name, .str "q")])
          [.node 10 (plainNode .picture [(.name, .str "j")]) [],
            .node 11 (plainNode .variable [(.name, .str "v")]) []]]]

/-- The script may name the picture of its own object, but not that of the other one. -/
theorem compileTree_references_crossNaming :
    (∃ t supply' doc e doc' e', (crossNaming "i").named ⟨.empty, .counting []⟩ = (.ok t, supply') ∧
      compileTree ((crossNaming "i").settle (Tree.names [t]) t) ⟨.empty, .counting []⟩ = (.ok doc', e') ∧
      compileTree (crossNaming "i") ⟨.empty, .counting []⟩ = (.ok doc, e) ∧
      (doc.layout []).1 = (doc'.layout []).1) ∧
    ∃ t supply' kind name e, (crossNaming "j").named ⟨.empty, .counting []⟩ = (.ok t, supply') ∧
      compileTree (crossNaming "j") ⟨.empty, .counting []⟩ = (.error (.unresolved kind name), e) ∧
      (kind, name) ∈ Tree.unresolved [t] := by
  have hn : ∀ picture, ((crossNaming picture).nodes.map (·.1)).Nodup := by
    intro picture
    change (List.range 12).Nodup
    decide
  have hg : ∀ picture, (crossNaming picture).Given := by
    intro picture
    simp only [crossNaming, Tree.Given, Tree.AllGiven, and_true]
    refine ⟨?_, ?_, ⟨?_, ⟨?_, ?_, ?_, ?_, ?_⟩, ?_⟩, ?_, ?_, ?_⟩ <;> exact fun field => by cases field <;> rfl
  have ha : ∀ picture ∈ ["i", "j"], ∀ n ∈ (crossNaming picture).nodes, n.2.AuthorsText := by decide +kernel
  have hrun : ∀ picture ∈ ["i", "j"],
      (match (crossNaming picture).named ⟨.empty, .counting []⟩,
          evaluate (crossNaming picture) .root (begun ⟨.empty, .counting []⟩ (.compiling "Project")) with
        | (.ok t, _), (.ok _, e) => e.document.populatedBy.length == 1 &&
            (compileTree ((crossNaming picture).settle (Tree.names [t]) t) ⟨.empty, .counting []⟩).1.isOk &&
            (Tree.unresolved [t]).isEmpty == (picture == "i")
        | _, _ => false) = true := by decide +kernel
  -- both trees stand where they may, as their evaluation shows, and are compiled when they have been settled
  have hready : ∀ picture ∈ ["i", "j"], ∃ t supply' doc' e',
      (crossNaming picture).named ⟨.empty, .counting []⟩ = (.ok t, supply') ∧
      Tree.EverywhereIn (fun above b => b.Placed above ∧ b.Holds) [] [t] ∧
      compileTree ((crossNaming picture).settle (Tree.names [t]) t) ⟨.empty, .counting []⟩ = (.ok doc', e') ∧
      (Tree.unresolved [t]).isEmpty = (picture == "i") := by
    intro picture hm
    have h := hrun picture hm
    rcases hnamed : (crossNaming picture).named ⟨.empty, .counting []⟩ with ⟨_ | t, supply'⟩
    · rw [hnamed] at h
      cases h
    · rcases he : evaluate (crossNaming picture) .root (begun ⟨.empty, .counting []⟩ (.compiling "Project")) with
        ⟨_ | _, e⟩
      · rw [hnamed, he] at h
        cases h
      · rw [hnamed, he] at h
        simp only [Bool.and_eq_true, beq_iff_eq] at h
        obtain ⟨⟨hone, hok⟩, hnil⟩ := h
        obtain ⟨n, hfill⟩ := fills_of_begun (hn picture) hnamed he hone
        rcases hs : compileTree ((crossNaming picture).settle (Tree.names [t]) t) ⟨.empty, .counting []⟩ with
          ⟨_ | doc', e'⟩
        · rw [hs] at hok
          cases hok
        · exact ⟨t, supply', doc', e', rfl, hfill.placed (.root _), hs, hnil⟩
  refine ⟨?_, ?_⟩
  · obtain ⟨t, supply', doc', e', hnamed, hp, hs, hnil⟩ := hready "i" (.head _)
    obtain ⟨doc, e, hc, hlayout⟩ := (compileTree_references (hn "i") (hg "i") (ha "i" (.head _)) hnamed
      (hp.mp fun _ _ hb _ => hb) hs).2.2 (List.isEmpty_iff.mp hnil)
    exact ⟨t, supply', doc, e, doc', e', hnamed, hs, hc, hlayout⟩
  · obtain ⟨t, supply', doc', e', hnamed, hp, hs, hnil⟩ := hready "j" (.tail _ (.head _))
    obtain ⟨hiff, hmem, -⟩ := compileTree_references (hn "j") (hg "j") (ha "j" (.tail _ (.head _))) hnamed
      (hp.mp fun _ _ hb _ => hb) hs
    have hne : Tree.unresolved [t] ≠ [] := by
      intro he
      rw [he] at hnil
      cases hnil
    obtain ⟨kind, name, e, hc⟩ := hiff.mpr hne
    exact ⟨t, supply', kind, name, e, hnamed, hc, hmem kind name e hc⟩

end Evaluating

end SceneTree
