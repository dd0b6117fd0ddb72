import SceneTree.Proofs.Containment.Acceptance
import SceneTree.Proofs.Identity.Census
import SceneTree.Proofs.Identity.Taken

/-!
# The ids of a compiled document are distinct

A tree of different nodes that is compiled puts each id that its nodes take into the document once. The ids of local
variables are made of that of a function and one that is taken, so that they differ among themselves; nothing keeps
another node from having such an id as an authored one.
-/

namespace SceneTree

namespace Tree

section

variable {κ α β : Type} {step : κ → Branch → κ} {forest all : List (Tree Value)} {above : List Branch}

/-- What two sorts of pieces come to together is among what a third sort comes to, if that is so at each node. -/
theorem coe_each_add_le {f g h : Branch → Option α}
    (hp : ∀ b, ((f b).toList : Multiset α) + (g b).toList ≤ (h b).toList) (forest : List (Tree Value)) :
    (each f forest : Multiset α) + each g forest ≤ each h forest := by
  induction forest using forest_induction with
  | nil => exact le_refl _
  | literal v rest ih => exact ih
  | node b rest ihc ihr =>
    have hsplit : ∀ k : Branch → Option α, (each k (.node b.id b.node b.children :: rest) : Multiset α) =
        (k b).toList + (each k b.children + each k rest) := by
      intro k
      rw [each_cons, each_node, ← Multiset.coe_add, ← Multiset.coe_add, add_assoc]
    rw [hsplit, hsplit, hsplit, add_add_add_comm, add_add_add_comm (each f b.children : Multiset α)]
    exact add_le_add (hp b) (add_le_add ihc ihr)

/-- What one sort of pieces comes to is a part of what another sort comes to, if that is so at each node. -/
theorem each_sublist {P : Branch → Prop} {f g : Branch → Option α} (hp : ∀ b, P b → ∀ x, f b = some x → g b = some x)
    (h : EverywhereIn (fun _ => P) above forest) : (each f forest).Sublist (each g forest) := by
  induction forest using forest_induction generalizing above with
  | nil => exact .refl []
  | literal v rest ih => exact ih ((everywhereIn_literal v).mp h)
  | node b rest ihc ihr =>
    obtain ⟨hb, hc, hr⟩ := everywhereIn_node.mp h
    rw [each_cons, each_node, each_cons g, each_node g]
    refine ((List.Sublist.append ?_ (ihc hc)).append (ihr hr))
    cases hf : f b with
    | none => exact List.nil_sublist _
    | some x => rw [hp b hb x hf]

/-- What a piece shows of itself does not depend on the context. -/
theorem map_gatherOf {P : Branch → Prop} {piece : κ → Branch → Option α} {f : α → β} {piece' : Branch → Option β}
    (hp : ∀ c b, P b → (piece c b).map f = piece' b) (h : EverywhereIn (fun _ => P) above forest) (c : κ) :
    (gatherOf step piece c forest).map f = each piece' forest := by
  induction forest using forest_induction generalizing above c with
  | nil => rfl
  | literal v rest ih => exact ih ((everywhereIn_literal v).mp h) c
  | node b rest ihc ihr =>
    obtain ⟨hb, hc, hr⟩ := everywhereIn_node.mp h
    rw [gatherOf_node, each_cons, each_node, List.map_append, List.map_append, ihc hc, ihr hr, List.append_assoc,
      ← hp c b hb]
    cases piece c b <;> rfl

/-- What a node offers is among what all nodes offer. -/
theorem everywhereIn_mem_each (piece : Branch → Option α) (h : ∀ x ∈ each piece forest, x ∈ each piece all) :
    EverywhereIn (fun _ b => ∀ x, piece b = some x → x ∈ each piece all) above forest := by
  induction forest using forest_induction generalizing above with
  | nil => exact everywhereIn_nil
  | literal v rest ih => exact (everywhereIn_literal v).mpr (ih h)
  | node b rest ihc ihr =>
    rw [each_cons, each_node] at h
    refine everywhereIn_node.mpr ⟨fun x hx => h x ?_, ihc fun x hx => h x ?_, ihr fun x hx => h x ?_⟩
    · simp [hx]
    · simp [hx]
    · simp [hx]

end

section

variable {α : Type}

mutual

/-- Giving ids to a tree changes nothing about its nodes. -/
theorem each_of_named (f : Node → Option α) : {tree : Tree Nat} → {t : Tree Value} → {supply supply' : IdSupply} →
    tree.named supply = (.ok t, supply') → each (fun b => f b.node) [t] = tree.nodes.filterMap fun n => f n.2
  | .node mark data children, t, supply, supply', hn => by
    rw [named] at hn
    obtain ⟨id, s₁, -, hn⟩ := Attempt.bind_eq_ok_iff.mp hn
    obtain ⟨ts, s₂, hts, hn⟩ := Attempt.bind_eq_ok_iff.mp hn
    cases hn
    rw [each_node _ ⟨id, data, ts⟩, each_of_allNamed f hts, nodes, List.filterMap_cons]
    cases f data <;> simp
  | .literal v, t, supply, supply', hn => by
    rw [named] at hn
    cases hn
    rfl

/-- Giving ids to trees changes nothing about their nodes. -/
theorem each_of_allNamed (f : Node → Option α) : {forest : List (Tree Nat)} → {ts : List (Tree Value)} →
    {supply supply' : IdSupply} → allNamed forest supply = (.ok ts, supply') →
      each (fun b => f b.node) ts = (nodesOf forest).filterMap fun n => f n.2
  | [], ts, supply, supply', hn => by
    rw [allNamed] at hn
    cases hn
    rfl
  | tree :: rest, ts, supply, supply', hn => by
    rw [allNamed] at hn
    obtain ⟨t, s₁, ht, hn⟩ := Attempt.bind_eq_ok_iff.mp hn
    obtain ⟨us, s₂, hus, hn⟩ := Attempt.bind_eq_ok_iff.mp hn
    cases hn
    rw [each_cons, each_of_named f ht, each_of_allNamed f hus, nodesOf, List.filterMap_append]

end

end

end Tree

namespace Branch

/-- The ids of entries and of scripts are among those that the nodes take. -/
theorem entityId?_add_scriptId?_le (b : Branch) :
    (b.entityId?.toList : Multiset Value) + b.scriptId?.toList ≤ b.takenId?.toList := by
  unfold entityId? scriptId? takenId? Node.requestedId? Branch.kind
  cases b.node.kind <;> first | exact le_of_eq rfl | exact Multiset.zero_le _

/-- An authored id is taken. -/
theorem takenId?_of_authoredId? {b : Branch} {id : Value} (h : b.Took) (ha : b.authoredId? = some id) :
    b.takenId? = some id := by
  have hid := h.authored ha
  unfold authoredId? at ha
  unfold takenId?
  rw [(Option.filter_eq_some_iff.mp ha).1, Option.map_some, hid]

/-- Only entries have authored ids. -/
theorem entityId?_of_authoredId? {b : Branch} {id : Value} (h : b.Took) (ha : b.authoredId? = some id) :
    b.entityId? = some id := by
  have hid := h.authored ha
  unfold authoredId? Node.requestedId? at ha
  unfold entityId? Branch.kind
  rw [hid]
  cases hk : b.node.kind <;> rw [hk] at ha <;> first | rfl | cases ha

/-- The ids of entries are requested, and so are those of scripts, on which none is authored. -/
theorem requests_of_entityId? {b : Branch} {id : Value} (h : b.entityId? = some id) :
    b.node.requestedId?.isSome = true ∧ b.id = id := by
  unfold entityId? Branch.kind at h
  unfold Node.requestedId?
  obtain ⟨hk, hid⟩ := Option.ite_none_right_eq_some.mp h
  refine ⟨?_, Option.some_inj.mp hid⟩
  cases hn : b.node.kind <;> rw [hn] at hk <;> first | rfl | cases hk

theorem requests_of_scriptId? {b : Branch} {id : Value} (h : b.scriptId? = some id) :
    b.node.requestedId?.isSome = true ∧ b.authoredId? = none ∧ b.id = id := by
  unfold scriptId? Branch.kind at h
  unfold authoredId? Node.requestedId?
  obtain ⟨hk, hid⟩ := Option.ite_none_right_eq_some.mp h
  rw [hk]
  exact ⟨rfl, rfl, Option.some_inj.mp hid⟩

end Branch

/-- The last four characters of a text. -/
def Value.ending : Value → Value
  | .str s => .str (String.ofList (s.toList.drop (s.toList.length - 4)))
  | v => v

namespace Branch

/-- The id that a local variable has taken. -/
def ownId? (b : Branch) : Option Value := if b.kind = .localVariable then some b.id else none

/-- The id of a local variable ends with the one that it has taken, and is longer. -/
theorem Took.localId? {b : Branch} (h : b.Took) {function id : Value} (hl : b.localId? function = some id) :
    ∃ s : String, id = .str s ∧ 4 < s.length ∧ b.ownId? = some id.ending := by
  obtain ⟨hk, hid⟩ := Option.ite_none_right_eq_some.mp hl
  have hk' : b.node.kind = .localVariable := hk
  have hr : b.node.requestedId? = some .null := by
    unfold Node.requestedId?
    rw [hk']
  have ha : b.authoredId? = none := by
    unfold authoredId?
    rw [hr]
    rfl
  obtain ⟨own, ho, hlength⟩ := h.drawn ha (by rw [hr]; rfl)
  have htext : id = .str (function.toText ++ "_" ++ own) := by
    rw [← Option.some_inj.mp hid, ho]
    rfl
  refine ⟨_, htext, ?_, ?_⟩
  · rw [String.length_append, String.length_append, hlength, show "_".length = 1 from rfl]
    omega
  · have hlist : (function.toText ++ "_" ++ own).toList = (function.toText ++ "_").toList ++ own.toList :=
      String.toList_append
    have hfour : own.toList.length = 4 := String.length_toList.trans hlength
    rw [ownId?, if_pos hk, ho, htext, Value.ending, hlist, List.length_append, hfour, Nat.add_sub_cancel,
      List.drop_left' rfl, String.ofList_toList]

/-- A local variable has an id made with its own one, and no other node has one. -/
theorem Took.map_localId? {b : Branch} (h : b.Took) (function : Value) :
    (b.localId? function).map Value.ending = b.ownId? := by
  cases hl : b.localId? function with
  | none =>
    unfold Branch.localId? at hl
    unfold ownId?
    rw [if_neg (by simpa using hl)]
    rfl
  | some id =>
    obtain ⟨-, -, -, ho⟩ := h.localId? hl
    exact ho.symm

/-- An own id is taken. -/
theorem takenId?_of_ownId? {b : Branch} {id : Value} (h : b.ownId? = some id) : b.takenId? = some id := by
  obtain ⟨hk, hid⟩ := Option.ite_none_right_eq_some.mp h
  have hk' : b.node.kind = .localVariable := hk
  unfold takenId? Node.requestedId?
  rw [hk']
  exact hid

end Branch

section

open Document

variable {forest : List (Tree Value)} {n n' : Handle} {doc : Document}

/-- The ids in a document that a forest has filled are those of its nodes. -/
theorem Fills.entityIds (h : Fills .root forest n .empty n' doc) :
    (doc.entityIds : Multiset Value) = Tree.each Branch.entityId? forest := by
  have hcomplete := h.keeps (fun hb => hb.complete) (⟨rfl, rfl⟩ : Document.empty.Complete)
  rw [hcomplete.coe_entityIds, entityIds_channel.fills h trivial, foldl_add_singleton]
  exact zero_add _

/-- The scripts that are found in a document that a forest has filled are those of its nodes. -/
theorem Fills.scriptIds_le (h : Fills .root forest n .empty n' doc) (depth : Nat) :
    (doc.scriptIds depth : Multiset Value) ≤ Tree.each Branch.scriptId? forest := by
  have hcomplete := h.keeps (fun hb => hb.complete) (⟨rfl, rfl⟩ : Document.empty.Complete)
  have hplaces := h.keeps (fun hb => hb.placeBag) (rfl : Document.empty.placeBag = _)
  refine (hcomplete.scriptIds_le hplaces depth).trans (le_of_eq ?_)
  rw [scriptIds_channel.fills h trivial, foldl_add_singleton]
  exact zero_add _

/-- The local variables of a document that a forest has filled are those of its nodes. -/
theorem Fills.localIds (h : Fills .root forest n .empty n' doc) :
    (doc.localIds : Multiset Value) = Tree.gatherOf Branch.functionBelow Branch.localId? .null forest := by
  have hcomplete := h.keeps (fun hb => hb.complete) (⟨rfl, rfl⟩ : Document.empty.Complete)
  have hlocals := localIds_channel.fills h ⟨.root_scope _, rfl⟩
  rw [foldl_add_singleton] at hlocals
  rw [hcomplete.coe_localIds]
  exact hlocals.trans (zero_add _)

end

namespace Evaluating

variable {tree : Tree Nat} {supply : IdSupply} {doc : Document} {e : Evaluation}

/-- What a compiled tree leaves: its nodes took ids that are pairwise distinct, and the document that they filled has
kept what its references found. -/
theorem taken_of_compileTree (hn : (tree.nodes.map (·.1)).Nodup) (ha : ∀ n ∈ tree.nodes, n.2.AuthorsText)
    (h : compileTree tree supply = (.ok doc, e)) :
    ∃ t n doc₀ readings, tree.named supply = (.ok t, e.supply) ∧ Fills .root [t] 0 .empty n doc₀ ∧
      doc = doc₀.keep readings ∧ (Tree.each Branch.takenId? [t]).Nodup ∧
      Tree.EverywhereIn (fun _ => Branch.Took) [] [t] := by
  obtain ⟨notice, e₁, layout, readings, he, hleft, hone, -, rfl⟩ := evaluate_of_compileTree h
  have hsupply : e.supply = e₁.supply := by rw [hleft]
  obtain ⟨t, ht, hfill, -, -⟩ :=
    fills_of_evaluate tree he hn (tidy_begun supply notice) (.root_scope _) (Nat.le_of_eq hone)
  have hnodes : Tree.nodesOf [tree] = tree.nodes := List.append_nil _
  have howned : (begun supply notice).Owned := (ready_begun supply notice).owned
  obtain ⟨ts, hts, -, -, htakes⟩ := takes_of_evaluates (evaluates_of_evaluate tree he)
    (by rw [hnodes]; exact hn) howned (by rw [hnodes]; exact ha)
  obtain rfl : ts = [t] := by
    rw [Tree.allNamed, Attempt.bind_apply_of_ok ht] at hts
    cases hts
    rfl
  refine ⟨t, _, _, readings, hsupply ▸ ht, hfill, rfl, htakes.distinct, ?_⟩
  have htook : Tree.EverywhereIn (fun _ b => b.Took ∧ b.node.AuthorsText) [] [t] := by
    rw [Tree.EverywhereIn]
    exact ⟨Tree.took_of_named (P := Node.AuthorsText) ht ha [], Tree.everywhereIn_nil⟩
  exact htook.mp fun _ _ hb => hb.1

/-- A tree of different nodes that is compiled puts every id into the document once: the ids of the entries and of the
scripts at any depth are pairwise distinct, and so are those of the local variables. A tree in which one id is authored
on two nodes is not compiled. -/
theorem compileTree_ids_distinct (supply : IdSupply) (hn : (tree.nodes.map (·.1)).Nodup)
    (ha : ∀ n ∈ tree.nodes, n.2.AuthorsText) :
    (∀ doc e, compileTree tree supply = (.ok doc, e) →
      (∀ depth, (doc.entityIds ++ doc.scriptIds depth).Nodup) ∧ doc.localIds.Nodup) ∧
    ∀ n ∈ tree.nodes, ∀ n' ∈ tree.nodes, n.1 ≠ n'.1 → ∀ id, id.truthy = true → n.2.requestedId? = some id →
      n'.2.requestedId? = some id → ∃ fault e, compileTree tree supply = (.error fault, e) := by
  refine ⟨?_, ?_⟩
  · intro doc e h
    obtain ⟨t, n, doc₀, readings, ht, hfill, rfl, hdistinct, htook⟩ := taken_of_compileTree hn ha h
    refine ⟨fun depth => ?_, ?_⟩
    · have hle : (↑(doc₀.entityIds ++ doc₀.scriptIds depth) : Multiset Value) ≤ Tree.each Branch.takenId? [t] := by
        rw [← Multiset.coe_add, hfill.entityIds]
        exact (add_le_add_right (hfill.scriptIds_le depth) _).trans
          (Tree.coe_each_add_le Branch.entityId?_add_scriptId?_le [t])
      rw [Document.entityIds_keep, Document.scriptIds_keep]
      exact Multiset.coe_nodup.mp (Multiset.nodup_of_le hle (Multiset.coe_nodup.mpr hdistinct))
    · have hown : (Tree.each Branch.ownId? [t]).Nodup :=
        hdistinct.sublist (Tree.each_sublist (fun _ _ _ => Branch.takenId?_of_ownId?) htook)
      have hending : (Tree.gatherOf Branch.functionBelow Branch.localId? .null [t]).map Value.ending =
          Tree.each Branch.ownId? [t] :=
        Tree.map_gatherOf (fun function b hb => hb.map_localId? function) htook .null
      rw [← hending] at hown
      rw [Document.localIds_keep, ← Multiset.coe_nodup, hfill.localIds]
      exact Multiset.coe_nodup.mpr hown.of_map
  · intro n hmem n' hmem' hne id hid hr hr'
    rcases h : compileTree tree supply with ⟨fault | doc, e⟩
    · exact ⟨fault, e, rfl⟩
    · obtain ⟨t, -, -, -, ht, -, -, hdistinct, htook⟩ := taken_of_compileTree hn ha h
      have hauthored := hdistinct.sublist (Tree.each_sublist (fun _ hb _ => Branch.takenId?_of_authoredId? hb) htook)
      unfold Branch.authoredId? at hauthored
      rw [Tree.each_of_named (fun node => node.requestedId?.filter (·.truthy)) ht, List.Nodup,
        List.pairwise_filterMap] at hauthored
      have hboth : ∀ m : Nat × Node, m.2.requestedId? = some id → m.2.requestedId?.filter (·.truthy) = some id := by
        intro m hm
        rw [hm, Option.filter_some, if_pos hid]
      have hsymm : Std.Symm fun m m' : Nat × Node => ∀ id, m.2.requestedId?.filter (·.truthy) = some id →
          ∀ id', m'.2.requestedId?.filter (·.truthy) = some id' → id ≠ id' :=
        ⟨fun _ _ h x hx y hy => (h y hy x hx).symm⟩
      have hdiffer : n ≠ n' := fun he => hne (he ▸ rfl)
      exact absurd rfl (hauthored.forall hmem hmem' hdiffer id (hboth n hr) id (hboth n' hr'))

/-- A function and a sprite with entries and scripts of their own. -/
def manyEntries : Tree Nat :=
  .node 0 (plainNode .project [(.name, .str "p")])
    [.node 1 (plainNode .function [(.id, .str "f")])
      [.node 2 (plainNode .localVariable [(.name, .str "x")]) [],
        .node 3 (plainNode .localVariable [(.name, .str "x")]) [],
        .node 4 (plainNode .statement [])
          [.node 5 (plainNode .script [(.type, .str "t")]) [.node 6 (plainNode .script [(.type, .str "t")]) []]]],
      .node 7 (plainNode .scene [(.id, .str "s"), (.name, .str "s")])
        [.node 8 (plainNode .sprite [(.name, .str "o")])
          [.node 9 (plainNode .picture [(.name, .str "i")]) []]]]

/-- An id that is authored on two nodes. -/
def authoredTwice : Tree Nat :=
  .node 0 (plainNode .project [(.name, .str "p")])
    [.node 1 (plainNode .function [(.id, .str "f")]) [],
      .node 2 (plainNode .message [(.name, .str "m"), (.id, .str "f")]) []]

/-- All the ids of the first tree differ, and the second tree is not compiled. -/
theorem compileTree_ids_distinct_manyEntries :
    (∃ doc e, compileTree manyEntries ⟨.empty, .counting []⟩ = (.ok doc, e) ∧
      (doc.entityIds ++ doc.scriptIds 2).Nodup ∧ doc.localIds.Nodup) ∧
    ∃ fault e, compileTree authoredTwice ⟨.empty, .counting []⟩ = (.error fault, e) := by
  have hn : (manyEntries.nodes.map (·.1)).Nodup := by decide
  have ha : ∀ n ∈ manyEntries.nodes, n.2.AuthorsText := by decide +kernel
  have hok : (compileTree manyEntries ⟨.empty, .counting []⟩).1.isOk = true := by decide +kernel
  refine ⟨?_, ?_⟩
  · rcases hc : compileTree manyEntries ⟨.empty, .counting []⟩ with ⟨_ | doc, e⟩
    · rw [hc] at hok
      cases hok
    · obtain ⟨hids, hlocals⟩ := (compileTree_ids_distinct ⟨.empty, .counting []⟩ hn ha).1 doc e hc
      exact ⟨doc, e, rfl, hids 2, hlocals⟩
  · have hn : (authoredTwice.nodes.map (·.1)).Nodup := by decide
    have ha : ∀ n ∈ authoredTwice.nodes, n.2.AuthorsText := by decide +kernel
    exact (compileTree_ids_distinct ⟨.empty, .counting []⟩ hn ha).2 _ (.tail _ (.head _)) _
      (.tail _ (.tail _ (.head _))) (by decide) (.str "f") (by decide) rfl rfl

/-- In a compiled document an id that is made for a local variable is that of an entry or of a script if and only if
some node has it as an authored one. -/
theorem localIds_apart_iff (hn : (tree.nodes.map (·.1)).Nodup) (ha : ∀ n ∈ tree.nodes, n.2.AuthorsText)
    (h : compileTree tree supply = (.ok doc, e)) :
    (∀ id ∈ doc.localIds, ∀ depth, id ∉ doc.entityIds ++ doc.scriptIds depth) ↔
      ∀ id ∈ doc.localIds, ∀ n ∈ tree.nodes, n.2.requestedId? ≠ some id := by
  obtain ⟨t, n, doc₀, readings, ht, hfill, rfl, -, htook⟩ := taken_of_compileTree hn ha h
  simp only [Document.entityIds_keep, Document.scriptIds_keep, Document.localIds_keep]
  have hauthored := Tree.each_of_named (fun node => node.requestedId?.filter (·.truthy)) ht
  have hlong : ∀ id ∈ doc₀.localIds, ∃ s : String, id = .str s ∧ 4 < s.length := by
    intro id hid
    rw [← Multiset.mem_coe, hfill.localIds, Multiset.mem_coe] at hid
    obtain ⟨function, above, b, hb, -, hl⟩ := htook.of_mem_any hid
    obtain ⟨s, hs, hlength, -⟩ := hb.localId? hl
    exact ⟨s, hs, hlength⟩
  constructor
  · intro hapart id hid n hmem hr
    obtain ⟨s, rfl, hlength⟩ := hlong id hid
    have htruthy : (Value.str s).truthy = true := by
      have hne : s ≠ "" := by
        rintro rfl
        exact absurd hlength (by decide)
      simpa [Value.truthy] using hne
    refine hapart _ hid 0 (List.mem_append_left _ ?_)
    rw [← Multiset.mem_coe, hfill.entityIds, Multiset.mem_coe]
    have hsub := Tree.each_sublist (fun _ hb _ => Branch.entityId?_of_authoredId? hb) htook
    refine hsub.subset ?_
    unfold Branch.authoredId?
    rw [hauthored, List.mem_filterMap]
    exact ⟨n, hmem, by rw [hr, Option.filter_some, if_pos htruthy]⟩
  · intro hfree id hid depth hmem
    obtain ⟨s, rfl, hlength⟩ := hlong id hid
    have hoffered : Tree.EverywhereIn (fun _ b => ∀ x, b.authoredId? = some x → x ∈ Tree.each Branch.authoredId? [t])
        [] [t] := Tree.everywhereIn_mem_each Branch.authoredId? fun _ => id
    have hknown := htook.and hoffered
    have hshort : ∀ b : Branch, b.Took → b.authoredId? = none → b.node.requestedId?.isSome = true → b.id ≠ .str s := by
      intro b hb hnone hr he
      obtain ⟨s', hs', hfour⟩ := hb.drawn hnone hr
      cases he.symm.trans hs'
      omega
    rcases List.mem_append.mp hmem with hmem | hmem
    · rw [← Multiset.mem_coe, hfill.entityIds, Multiset.mem_coe] at hmem
      obtain ⟨above, b, ⟨hb, hoffers⟩, he⟩ := hknown.of_mem_each hmem
      obtain ⟨hr, hself⟩ := Branch.requests_of_entityId? he
      cases hauth : b.authoredId? with
      | none => exact hshort b hb hauth hr hself
      | some authored =>
        obtain rfl : authored = .str s := (hb.authored hauth).symm.trans hself
        have hall := hoffers _ hauth
        unfold Branch.authoredId? at hall
        rw [hauthored, List.mem_filterMap] at hall
        obtain ⟨m, hm, hr⟩ := hall
        exact hfree _ hid m hm (Option.filter_eq_some_iff.mp hr).1
    · have hscript := Multiset.mem_of_le (hfill.scriptIds_le depth) (Multiset.mem_coe.mpr hmem)
      obtain ⟨above, b, ⟨hb, -⟩, hs⟩ := hknown.of_mem_each (Multiset.mem_coe.mp hscript)
      obtain ⟨hr, hnone, hself⟩ := Branch.requests_of_scriptId? hs
      exact hshort b hb hnone hr hself

/-- In the document of many entries no id is made twice. -/
theorem localIds_apart_iff_manyEntries :
    ∃ doc e, (manyEntries.nodes.map (·.1)).Nodup ∧ (∀ n ∈ manyEntries.nodes, n.2.AuthorsText) ∧
      compileTree manyEntries ⟨.empty, .counting []⟩ = (.ok doc, e) ∧ doc.localIds.length = 2 ∧
      ((∀ id ∈ doc.localIds, ∀ depth, id ∉ doc.entityIds ++ doc.scriptIds depth) ↔
        ∀ id ∈ doc.localIds, ∀ n ∈ manyEntries.nodes, n.2.requestedId? ≠ some id) := by
  have hn : (manyEntries.nodes.map (·.1)).Nodup := by decide
  have ha : ∀ n ∈ manyEntries.nodes, n.2.AuthorsText := by decide +kernel
  have hok : (match (compileTree manyEntries ⟨.empty, .counting []⟩).1 with
      | .ok doc => decide (doc.localIds.length = 2)
      | .error _ => false) = true := by decide +kernel
  rcases hc : compileTree manyEntries ⟨.empty, .counting []⟩ with ⟨_ | doc, e⟩
  · rw [hc] at hok
    cases hok
  · rw [hc] at hok
    exact ⟨doc, e, hn, ha, rfl, of_decide_eq_true hok, localIds_apart_iff hn ha hc⟩

/-- A message has the id that is made for the local variable of a function. -/
def composedAuthored : Tree Nat :=
  .node 0 (plainNode .project [(.name, .str "p")])
    [.node 1 (plainNode .function [(.id, .str "f")]) [.node 2 (plainNode .localVariable [(.name, .str "x")]) []],
      .node 3 (plainNode .message [(.name, .str "m"), (.id, .str "f_0000")]) []]

/-- The tree is compiled, with one id for the local variable and for the message. -/
theorem compileTree_localIds_composedAuthored :
    (composedAuthored.nodes.map (·.1)).Nodup ∧ (∀ n ∈ composedAuthored.nodes, n.2.AuthorsText) ∧
      ∃ doc e, compileTree composedAuthored ⟨.empty, .counting []⟩ = (.ok doc, e) ∧
        .str "f_0000" ∈ doc.localIds ∧ .str "f_0000" ∈ doc.entityIds := by
  refine ⟨by decide, by decide +kernel, ?_⟩
  have hok : (match (compileTree composedAuthored ⟨.empty, .counting []⟩).1 with
      | .ok doc => decide (doc.localIds.any (· == .str "f_0000") ∧ doc.entityIds.any (· == .str "f_0000"))
      | .error _ => false) = true := by decide +kernel
  rcases hc : compileTree composedAuthored ⟨.empty, .counting []⟩ with ⟨_ | doc, e⟩
  · rw [hc] at hok
    cases hok
  · rw [hc] at hok
    obtain ⟨hlocal, hentry⟩ := of_decide_eq_true hok
    obtain ⟨id, hid, hsame⟩ := List.any_eq_true.mp hlocal
    obtain ⟨id', hid', hsame'⟩ := List.any_eq_true.mp hentry
    obtain rfl := Value.beq_str_iff.mp hsame
    obtain rfl := Value.beq_str_iff.mp hsame'
    exact ⟨doc, e, rfl, hid, hid'⟩

end Evaluating

end SceneTree
