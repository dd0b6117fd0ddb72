import SceneTree.Proofs.References.Resolution

/-!
# The rules for settled trees

Settling takes nothing from a tree but its names. A typed tree that keeps the rules of containment, but for names that
are the names of nothing, keeps all of them when it has been settled, and is compiled then. So it is compiled itself, or
refused for such a name (`compileTree_of_rules`).
-/

namespace SceneTree

section

open Branch

variable {ι : Type} {names : Names} {b b' : Branch} {above above' : List Branch} {forest : List (Tree Value)}

/-- One of some nodes has a property that depends on its attributes. -/
theorem exists_mem_iff_of_map_eq (h : above'.map (·.node) = above.map (·.node)) (p : Node → Prop) :
    (∃ a ∈ above', p a.node) ↔ ∃ a ∈ above, p a.node := by
  have hmap : ∀ as : List Branch, (∃ a ∈ as, p a.node) ↔ ∃ node ∈ as.map (·.node), p node := by
    intro as
    simp
  rw [hmap, hmap, h]

/-- The first of some nodes of a sort has a property that depends on its attributes. -/
theorem exists_find?_iff_of_map_eq (h : above'.map (·.node) = above.map (·.node)) (q : Node → Bool) (p : Node → Prop) :
    (∃ a, above'.find? (fun a => q a.node) = some a ∧ p a.node) ↔
      ∃ a, above.find? (fun a => q a.node) = some a ∧ p a.node := by
  have hmap : ∀ as : List Branch, (∃ a, as.find? (fun a => q a.node) = some a ∧ p a.node) ↔
      ∃ node, (as.map (·.node)).find? q = some node ∧ p node := by
    intro as
    have hcomp : (q ∘ fun a : Branch => a.node) = fun a => q a.node := rfl
    rw [List.find?_map, hcomp]
    simp
  rw [hmap, hmap, h]

/-- Whether parameters may stand below some nodes depends on the attributes of these. -/
theorem Branch.inBlock_congr (h : above'.map (·.node) = above.map (·.node)) : InBlock above' ↔ InBlock above :=
  exists_find?_iff_of_map_eq h (fun node => node.kind.isOwner || node.kind.takesParams) (·.kind.takesParams = true)

/-- Where a node may stand depends on its own attributes and those of the nodes above. -/
theorem Branch.placed_congr (h : above'.map (·.node) = above.map (·.node)) (hb : b'.node = b.node) :
    b'.Placed above' ↔ b.Placed above := by
  unfold Placed nearestObject nearestOwner Branch.kind
  rw [hb]
  match b.node.kind with
  | .fragment | .project | .node | .namedParam => exact Iff.rfl
  | .scene | .variable | .message | .function | .table => exact exists_mem_iff_of_map_eq h (·.kind = .project)
  | .object | .sprite | .textBox => exact exists_mem_iff_of_map_eq h (·.kind = .scene)
  | .picture =>
    exact exists_find?_iff_of_map_eq h (·.kind.isObject) fun node => (node.get .objectType).isText "sprite" = true
  | .sound => exact exists_mem_iff_of_map_eq h (·.kind.isObject = true)
  | .localVariable => exact exists_find?_iff_of_map_eq h (·.kind.isOwner) (·.kind = .function)
  | .statement => exact exists_mem_iff_of_map_eq h (·.kind.isOwner = true)
  | .script | .param | .variableParam | .objectParam => exact inBlock_congr h
  | .pictureParam | .soundParam =>
    exact and_congr (inBlock_congr h) (exists_mem_iff_of_map_eq h (·.kind.isObject = true))

/-- A named parameter that stands where it may stands in a block. -/
theorem Branch.Placed.inBlock (h : b.Placed above) (hk : b.kind.isNamedParam = true) : InBlock above := by
  unfold Placed at h
  generalize b.kind = kind at h hk
  match kind with
  | .variableParam | .objectParam => exact h
  | .pictureParam | .soundParam => exact h.1
  | .namedParam => exact h.elim

/-- A parameter that holds a value holds what it may. -/
theorem Branch.holds_holding (id v : Value) : Branch.Holds ⟨id, .holding v, []⟩ where
  nodes := fun _ => rfl
  literals := fun _ => rfl
  single := by
    intro _
    change ((Node.holding v).paramValues []).length ≤ 1
    unfold Node.paramValues
    split
    · exact Nat.zero_le 1
    · exact Nat.le_refl 1

/-- A node holds what it may also when what is in it has been settled. -/
theorem Branch.Holds.settleAll (h : b.Holds) (names : Names) (ts : List (Tree Value)) :
    Branch.Holds { b with children := Tree.settleAll names b.children ts } where
  nodes := by
    intro hk
    have hsub := Tree.nodesOf_settleAll names b.children ts
    rw [h.nodes hk, List.map_nil, List.sublist_nil, List.map_eq_nil_iff] at hsub
    exact hsub
  literals := by
    intro hk
    rw [Tree.literals_settleAll]
    exact h.literals hk
  single := by
    intro hk
    rw [Tree.literals_settleAll]
    exact h.single hk

/-- In settled trees there is no named parameter, and nodes stand where they may and hold what they may if they do so
before. -/
theorem Tree.placed_settleAll (h : EverywhereIn (fun above b => b.Placed above ∧ b.Holds) above forest)
    (ha : above'.map (·.node) = above.map (·.node)) (names : Names) :
    EverywhereIn (fun above b => (b.Placed above ∧ b.Holds) ∧ b.kind.isNamedParam = false) above'
      (settleAll names forest forest) := by
  induction forest using forest_induction generalizing above above' names with
  | nil =>
    rw [settleAll_nil]
    exact everywhereIn_nil
  | literal v rest ih =>
    rw [settleAll_literal]
    exact (everywhereIn_literal v).mpr (ih ((everywhereIn_literal v).mp h) ha names)
  | node b rest ihc ihr =>
    obtain ⟨⟨hplaced, hholds⟩, hc, hr⟩ := everywhereIn_node.mp h
    rw [settleAll_node]
    refine everywhereIn_node.mpr ⟨?_, ?_, ihr hr ha names⟩
    · cases hk : b.kind.isNamedParam with
      | false =>
        rw [settled_of_not_named hk]
        exact ⟨⟨(placed_congr ha rfl).mpr hplaced, hholds.settleAll _ _⟩, hk⟩
      | true =>
        rw [settled_of_named hk]
        have hparam : Placed above ⟨b.id, .holding (b.meant names), []⟩ := hplaced.inBlock hk
        exact ⟨⟨(placed_congr ha rfl).mpr hparam, holds_holding _ _⟩, rfl⟩
    · rw [children_settled hholds.children_eq_nil]
      cases hk : b.kind.isNamedParam with
      | false =>
        refine ihc hc ?_ _
        rw [settled_of_not_named hk, List.map_cons, List.map_cons, ha]
      | true =>
        rw [hholds.children_eq_nil hk, settleAll_nil]
        exact everywhereIn_nil

/-- A parameter that holds plain data is typed. -/
theorem Node.typed_holding {v : Value} (h : v.isJson = true) : (Node.holding v).Typed where
  json := by
    intro field
    simp only [holding]
    split
    · exact h
    · rfl
  id := .inl rfl
  interface := nofun
  lists := nofun
  data := nofun
  extensions := nofun

namespace Tree

mutual

/-- A typed tree is typed also when it has been settled with plain ids. -/
theorem Typed.settle {names : Names} : {tree : Tree ι} → tree.Typed → names.Plain → (t : Tree Value) →
    {above : List Branch} → Everywhere (fun _ b => b.id.isJson = true) above t → (tree.settle names t).Typed
  | .node mark data children, h, hn, .node own other inner, above, ht => by
    rw [Typed] at h
    rw [Everywhere] at ht
    rw [Tree.settle]
    split
    · rw [Typed, AllTyped]
      exact ⟨Node.typed_holding (hn.isJson_meant _), trivial⟩
    · rw [Typed]
      have hbelow : (namesBelow names ⟨own, data, inner⟩).Plain := hn.below (b := ⟨own, data, inner⟩) ht.2
      exact ⟨h.1, AllTyped.settle h.2 hbelow inner ht.2⟩
  | .node mark data children, h, _, .literal v, _, _ => by
    rw [settle_of_literal]
    exact h
  | .literal v, h, _, t, _, _ => by
    rw [settle_literal]
    exact h

/-- Typed trees are typed also when they have been settled with plain ids. -/
theorem AllTyped.settle {names : Names} : {forest : List (Tree ι)} → AllTyped forest → names.Plain →
    (ts : List (Tree Value)) → {above : List Branch} → EverywhereIn (fun _ b => b.id.isJson = true) above ts →
    AllTyped (settleAll names forest ts)
  | [], h, _, ts, _, _ => by
    rw [settleAll_nil]
    exact h
  | tree :: rest, h, hn, [], _, _ => by
    rw [settleAll_of_nil]
    exact h
  | tree :: rest, h, hn, u :: us, above, ht => by
    rw [AllTyped] at h
    rw [EverywhereIn] at ht
    rw [settleAll, AllTyped]
    exact ⟨Typed.settle h.1 hn u ht.1, AllTyped.settle h.2 hn us ht.2⟩

end

end Tree

end

/-- No id is authored on a parameter. -/
theorem Branch.authoredId?_of_isParam {b : Branch} (hk : b.kind.isParam = true) : b.authoredId? = none := by
  rw [authoredId?, Node.requestedId?_of_isParam hk]
  rfl

/-- No id is drawn for a parameter. -/
theorem Branch.drawnId?_of_isParam {b : Branch} (hk : b.kind.isParam = true) : b.drawnId? = none := by
  rw [drawnId?, Node.requestedId?_of_isParam hk]
  rfl

/-- No parameter is a project. -/
theorem Branch.project?_of_isParam {b : Branch} (hk : b.kind.isParam = true) : b.project? = none :=
  if_neg (Kind.ne_of_isParam hk rfl)

namespace Evaluating

variable {tree : Tree Nat} {t : Tree Value} {supply supply' : IdSupply}

/-- A typed tree of different nodes, whose authored ids are pairwise distinct and none of those that are drawn, keeps
the rules of containment but that for names if and only if it is compiled once it has been settled, and its named
parameters stand where they may. -/
theorem compileTree_settle_accepts_iff (hn : (tree.nodes.map (·.1)).Nodup) (ht : tree.Typed)
    (hnamed : tree.named supply = (.ok t, supply')) (hdistinct : (Tree.each Branch.authoredId? [t]).Nodup)
    (hdrawn : ∀ id ∈ Tree.each Branch.drawnId? [t], id ∉ Tree.each Branch.authoredId? [t]) :
    (∃ doc e, compileTree (tree.settle (Tree.names [t]) t) supply = (.ok doc, e)) ∧
        Tree.EverywhereIn (fun above b => b.kind.isNamedParam = true → b.Placed above ∧ b.Holds) [] [t] ↔
      (Tree.each Branch.project? [t]).length = 1 ∧
        Tree.EverywhereIn (fun above b => b.Placed above ∧ b.Holds) [] [t] := by
  constructor
  · rintro ⟨⟨doc, e, h⟩, hp⟩
    obtain ⟨notice, e₁, -, he₁, -, hone, -, -⟩ := stages_of_compileTree h
    rw [Tree.EverywhereIn] at hp
    have hbegun : (begun supply notice).Redraft (begun supply notice) := ⟨_, _, .refl _, rfl⟩
    obtain ⟨f₁, hf₁, ⟨doc₁, notices, hd, rfl⟩, -⟩ :=
      evaluate_of_settled tree hnamed hp.1 ⟨.root_scope _, by simp⟩ hbegun he₁
    rw [← hd.populatedBy] at hone
    obtain ⟨n, hfill⟩ := fills_of_begun hn hnamed hf₁ hone
    have hlength := hfill.length_populatedBy.symm.trans hone
    exact ⟨(Nat.zero_add _).symm.trans hlength, hfill.placed (.root _)⟩
  · rintro ⟨hsingle, hplaced⟩
    refine ⟨?_, hplaced.mp fun _ _ hb _ => hb⟩
    have hempty : Tree.EverywhereIn (fun _ b => b.kind.isNamedParam = true → b.children = []) [] [t] :=
      hplaced.mp fun _ _ hb => hb.2.children_eq_nil
    have htyped : Tree.EverywhereIn (fun _ => Branch.Typed) [] [t] := by
      rw [Tree.EverywhereIn]
      exact ⟨ht.named hnamed [], Tree.everywhereIn_nil⟩
    have hids := htyped.mp (Q := fun _ b => b.id.isJson = true) fun _ _ hb => hb.id.isJson
    have hplain := Tree.names_plain hids
    -- it has the project and the ids that it had before
    have hproject := Tree.each_settleAll (fun _ _ => rfl) (fun _ => Branch.project?_of_isParam) hempty (Tree.names [t])
    have hauthored := Tree.each_settleAll (fun _ _ => rfl) (fun _ => Branch.authoredId?_of_isParam) hempty
      (Tree.names [t])
    have hdrawns := Tree.each_settleAll (fun _ _ => rfl) (fun _ => Branch.drawnId?_of_isParam) hempty (Tree.names [t])
    have hrules := Tree.placed_settleAll hplaced rfl (Tree.names [t])
    rw [Tree.settleAll, Tree.settleAll_nil] at hproject hauthored hdrawns hrules
    rw [Tree.EverywhereIn] at hids hempty
    refine compileTree_of_contained ((Tree.nodes_settle _ tree t).nodup hn)
      (ht.settle hplain t hids.1) (Tree.named_settle hnamed hempty.1) ?_ ?_ ⟨?_, ?_, ?_, ?_⟩
    · rw [hauthored]
      exact hdistinct
    · rw [hauthored, hdrawns]
      exact hdrawn
    · rw [hproject]
      exact hsingle
    · exact hrules.mp fun _ _ hb => hb.1.1
    · exact hrules.mp fun _ _ hb => hb.1.2
    · refine hrules.mp fun _ _ hb hk => ?_
      rw [hb.2] at hk
      cases hk

/-- A typed tree of different nodes with one project, whose authored ids are pairwise distinct and none of those that are
drawn, and that keeps the rules of containment but that for names, is refused for a name that is the name of nothing if
there is one. Otherwise it is compiled, to the layout of the tree that it is settled to. -/
theorem compileTree_of_rules (hn : (tree.nodes.map (·.1)).Nodup) (ht : tree.Typed)
    (hnamed : tree.named supply = (.ok t, supply')) (hdistinct : (Tree.each Branch.authoredId? [t]).Nodup)
    (hdrawn : ∀ id ∈ Tree.each Branch.drawnId? [t], id ∉ Tree.each Branch.authoredId? [t])
    (hproject : (Tree.each Branch.project? [t]).length = 1)
    (hrules : Tree.EverywhereIn (fun above b => b.Placed above ∧ b.Holds) [] [t]) :
    (Tree.unresolved [t] ≠ [] → ∃ p ∈ Tree.unresolved [t], ∃ e,
      compileTree tree supply = (.error (.unresolved p.1 p.2), e)) ∧
    (Tree.unresolved [t] = [] → ∃ doc e doc' e', compileTree tree supply = (.ok doc, e) ∧
      compileTree (tree.settle (Tree.names [t]) t) supply = (.ok doc', e') ∧
      (doc.layout []).1 = (doc'.layout []).1) := by
  obtain ⟨⟨doc', e', hs⟩, hp⟩ :=
    (compileTree_settle_accepts_iff hn ht hnamed hdistinct hdrawn).mpr ⟨hproject, hrules⟩
  rcases compileTree_of_settled hn ht.given ht.authorsText hnamed hp hs with ⟨p, hmem, e, he⟩ | ⟨hnil, hok⟩
  · exact ⟨fun _ => ⟨p, hmem, e, he⟩, fun hnil => absurd hnil (List.ne_nil_of_mem hmem)⟩
  · obtain ⟨doc, e, he, hlayout⟩ := hok
    exact ⟨fun hne => absurd hnil hne, fun _ => ⟨doc, e, doc', e', he, hs, hlayout⟩⟩

end Evaluating

end SceneTree
