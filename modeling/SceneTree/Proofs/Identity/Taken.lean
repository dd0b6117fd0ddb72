import SceneTree.Proofs.Containment.Success
import SceneTree.Proofs.Translation.Successes

/-!
# Each id is given once

A node of a new tree takes an id that no handle keeps, and keeps it from then on. So the ids that the nodes of one tree
take are pairwise distinct, wherever each of them came from: an authored one is refused if it is kept already, and a
drawn one is not in use.
-/

namespace SceneTree

/-- The id of a node that is to have one. -/
def Branch.takenId? (b : Branch) : Option Value := b.node.requestedId?.map fun _ => b.id

/-- The id of a node is one that it may have taken from a supply. -/
def Branch.Took (b : Branch) : Prop := ∃ supply supply', b.node.takeId supply = (.ok b.id, supply')

namespace Branch.Took

variable {b : Branch}

/-- An id that was authored is the one that the node has. -/
theorem authored (h : b.Took) {id : Value} (ha : b.authoredId? = some id) : b.id = id := by
  obtain ⟨supply, supply', h⟩ := h
  rcases Evaluating.mem_ids_of_takeId h with ⟨-, hn, -⟩ | ⟨hn, -⟩ | ⟨hn, -⟩
  · rw [hn] at ha
    cases ha
  · exact Option.some_inj.mp (hn.symm.trans ha)
  · rw [hn] at ha
    cases ha

/-- An id that was not authored is drawn, four characters long. -/
theorem drawn (h : b.Took) (ha : b.authoredId? = none) (hr : b.node.requestedId?.isSome = true) :
    ∃ s : String, b.id = .str s ∧ s.length = 4 := by
  obtain ⟨supply, supply', h⟩ := h
  obtain ⟨authored, hr⟩ := Option.isSome_iff_exists.mp hr
  unfold authoredId? at ha
  rw [hr, Option.filter_some, ite_eq_right_iff] at ha
  have hfalse : authored.truthy = false := by
    cases ht : authored.truthy with
    | false => rfl
    | true => cases ha ht
  unfold Node.takeId at h
  simp only [hr, hfalse, Bool.false_eq_true, if_false] at h
  obtain ⟨s, supply₁, hs, h⟩ := Attempt.bind_eq_ok_iff.mp h
  obtain ⟨hid, -⟩ := Prod.mk.inj h
  refine ⟨s, (Except.ok.inj hid).symm, ?_⟩
  unfold IdSupply.fresh at hs
  rcases hn : supply.pool.next supply.source IdPool.defaultLength with ⟨outcome, pool, source⟩
  rw [hn] at hs
  obtain ⟨ho, -⟩ := Prod.mk.inj hs
  rw [ho] at hn
  exact IdPool.length_of_next hn

end Branch.Took

namespace Evaluation

variable {e e₁ e₂ : Evaluation} {ids ids' : List Value}

/-- Some handle keeps an id. -/
def Holds (e : Evaluation) (id : Value) : Prop := ∃ handle, e.idOf? handle = some id

/-- Between two states some ids are taken: they are pairwise distinct, no handle kept any of them before, and all that
is kept before or taken is kept afterwards. -/
structure Takes (e : Evaluation) (ids : List Value) (e' : Evaluation) : Prop where
  distinct : ids.Nodup
  free : ∀ id ∈ ids, ¬ e.Holds id
  kept : ∀ id, e.Holds id ∨ id ∈ ids → e'.Holds id

theorem Takes.refl (e : Evaluation) : e.Takes [] e where
  distinct := List.nodup_nil
  free := List.forall_mem_nil _
  kept := fun _ h => h.resolve_right List.not_mem_nil

/-- What is taken first and what is taken then is taken together. -/
theorem Takes.trans (h : e.Takes ids e₁) (h' : e₁.Takes ids' e₂) : e.Takes (ids ++ ids') e₂ where
  distinct := by
    refine List.nodup_append.mpr ⟨h.distinct, h'.distinct, ?_⟩
    rintro id hid _ hid' rfl
    exact h'.free id hid' (h.kept id (.inr hid))
  free := by
    intro id hid he
    rcases List.mem_append.mp hid with hid | hid
    · exact h.free id hid he
    · exact h'.free id hid (h.kept id (.inl he))
  kept := by
    intro id hid
    rw [List.mem_append, ← or_assoc] at hid
    exact h'.kept id (hid.imp_left (h.kept id))

end Evaluation

namespace Evaluating

variable {mark : Nat} {node : Node} {literals : List Value} {scope : NodeScope} {e e₁ e' : Evaluation}
  {out : Option NodeScope} {handle : Handle} {id : Value}

/-- A handle that keeps no id takes one that no other handle keeps. -/
theorem takes_of_request (h : request node handle e = (.ok id, e')) (ho : e.Owned) (hh : handle < e.met.length)
    (hn : e.idOf? handle = none) (ha : node.AuthorsText) :
    e.Takes (node.requestedId?.map fun _ => id).toList e' := by
  have ho' := owned_request ho hh ha
  rw [h] at ho'
  rcases request_eq node handle e with ⟨authored, hauthored, hr⟩ | hr
  · rw [hr] at h
    rw [Option.mem_def.mp hauthored]
    have hids := idOf?_of_instanceId_eq_ok h
    have hself : e'.idOf? handle = some id := by rw [hids, if_pos rfl]
    have hother : ∀ handle' id', e.idOf? handle' = some id' → e'.idOf? handle' = some id' := by
      intro handle' id' hi
      have hne : handle' ≠ handle := by
        rintro rfl
        rw [hn] at hi
        cases hi
      rw [hids, if_neg hne]
      exact hi
    refine ⟨List.nodup_singleton id, ?_, ?_⟩
    · rintro id' hid' ⟨handle', hi⟩
      obtain rfl := List.mem_singleton.mp hid'
      obtain rfl := ho'.idOf?_injective (hother handle' id' hi) hself
      rw [hn] at hi
      cases hi
    · rintro id' (⟨handle', hi⟩ | hid')
      · exact ⟨handle', hother handle' id' hi⟩
      · obtain rfl := List.mem_singleton.mp hid'
        exact ⟨handle, hself⟩
  · rw [hr] at h
    cases h
    cases hreq : node.requestedId? with
    | none => exact .refl e
    | some authored =>
      -- the request is that of an id, which does not leave everything as it is
      have hboth : instanceId handle authored e = (.ok .null, e) := by
        unfold request at hr
        rw [hreq] at hr
        exact hr
      have hself := idOf?_of_instanceId_eq_ok hboth handle
      rw [if_pos rfl, hn] at hself
      cases hself

/-- A new node that is visited with success takes its id from the supply, and nothing else does. -/
theorem takes_of_visit (h : visit mark node literals scope e = (.ok out, e₁)) (hm : mark ∉ e.met) (ho : e.Owned)
    (ha : node.AuthorsText) :
    ∃ id, node.takeId e.supply = (.ok id, e₁.supply) ∧ e₁.met = e.met ++ [mark] ∧ e₁.Owned ∧
      e.Takes (node.requestedId?.map fun _ => id).toList e₁ := by
  have howned := owned_visit ho mark ha literals scope
  rw [h] at howned
  obtain ⟨id, e₀, hr, -, he⟩ := effect_of_visit h
  have hlt := Evaluation.handleFor_lt e mark node
  rw [Evaluation.handleFor_of_new hm] at hr hlt
  have hnone : e.idOf? e.met.length = none := by
    cases hi : e.idOf? e.met.length with
    | none => rfl
    | some id => exact absurd (ho.bound hi) (Nat.lt_irrefl _)
  have htakes : (e.enter mark node).Takes (node.requestedId?.map fun _ => id).toList e₀ :=
    takes_of_request hr (ho.enter mark node) hlt hnone ha
  have hmet := met_request node e.met.length (e.enter mark node)
  rw [hr] at hmet
  have hsupply : node.takeId (e.enter mark node).supply = (.ok id, e₀.supply) := takeId_of_request hr hnone
  rw [he]
  refine ⟨id, hsupply, hmet.trans (Evaluation.met_enter_of_new hm node), he ▸ howned, ?_⟩
  exact ⟨htakes.distinct, htakes.free, htakes.kept⟩

end Evaluating

namespace Tree

/-- Trees that are plain values take nothing from a supply when they are named. -/
theorem allNamed_of_nodesOf {forest : List (Tree Nat)} (h : nodesOf forest = []) (supply : IdSupply) :
    ∃ ts, allNamed forest supply = (.ok ts, supply) ∧ nodesOf ts = [] := by
  induction forest with
  | nil => exact ⟨[], rfl, rfl⟩
  | cons t rest ih =>
    rw [nodesOf, List.append_eq_nil_iff] at h
    obtain ⟨ts, hts, hnodes⟩ := ih h.2
    cases t with
    | node mark data children => cases h.1
    | literal v =>
      refine ⟨.literal v :: ts, ?_, ?_⟩
      · rw [allNamed, Attempt.bind_apply, named]
        simp only [Attempt.pure_apply, Attempt.bind_apply, hts]
      · rw [nodesOf, nodes, hnodes]
        rfl

/-- Plain values have nothing to offer. -/
theorem each_of_nodesOf {α : Type} (piece : Branch → Option α) {ts : List (Tree Value)} (h : nodesOf ts = []) :
    each piece ts = [] :=
  gatherOf_of_nodesOf_eq_nil h

/-- A node takes its id from the supply before its children and what comes after it take theirs. -/
theorem allNamed_node {node : Node} {children rest : List (Tree Nat)} {id : Value} {ts us : List (Tree Value)}
    {supply supply₁ supply₂ supply₃ : IdSupply} (hid : node.takeId supply = (.ok id, supply₁))
    (hts : allNamed children supply₁ = (.ok ts, supply₂)) (hus : allNamed rest supply₂ = (.ok us, supply₃))
    (mark : Nat) : allNamed (.node mark node children :: rest) supply = (.ok (.node id node ts :: us), supply₃) := by
  have hnamed : named (.node mark node children) supply = (.ok (.node id node ts), supply₂) := by
    rw [named, Attempt.bind_apply_of_ok hid, Attempt.bind_apply_of_ok hts]
    rfl
  rw [allNamed, Attempt.bind_apply_of_ok hnamed, Attempt.bind_apply_of_ok hus]
  rfl

mutual

/-- The nodes of a tree that is named have ids that they took from a supply, and are the nodes that they were before. -/
theorem took_of_named {P : Node → Prop} : {tree : Tree Nat} → {t : Tree Value} → {supply supply' : IdSupply} →
    tree.named supply = (.ok t, supply') → (∀ n ∈ tree.nodes, P n.2) →
    ∀ above, Everywhere (fun _ b => b.Took ∧ P b.node) above t
  | .node mark data children, t, supply, supply', hn, hP, above => by
    rw [named] at hn
    obtain ⟨id, s₁, hid, hn⟩ := Attempt.bind_eq_ok_iff.mp hn
    obtain ⟨ts, s₂, hts, hn⟩ := Attempt.bind_eq_ok_iff.mp hn
    cases hn
    rw [nodes, List.forall_mem_cons] at hP
    rw [Everywhere]
    exact ⟨⟨⟨supply, s₁, hid⟩, hP.1⟩, took_of_allNamed hts hP.2 _⟩
  | .literal v, t, supply, supply', hn, _, above => by
    rw [named] at hn
    cases hn
    rw [Everywhere]
    trivial

/-- The nodes of trees that are named have ids that they took from a supply, and are the nodes that they were before. -/
theorem took_of_allNamed {P : Node → Prop} : {forest : List (Tree Nat)} → {ts : List (Tree Value)} →
    {supply supply' : IdSupply} → allNamed forest supply = (.ok ts, supply') → (∀ n ∈ nodesOf forest, P n.2) →
    ∀ above, EverywhereIn (fun _ b => b.Took ∧ P b.node) above ts
  | [], ts, supply, supply', hn, _, above => by
    rw [allNamed] at hn
    cases hn
    exact everywhereIn_nil
  | tree :: rest, ts, supply, supply', hn, hP, above => by
    rw [allNamed] at hn
    obtain ⟨t, s₁, ht, hn⟩ := Attempt.bind_eq_ok_iff.mp hn
    obtain ⟨us, s₂, hus, hn⟩ := Attempt.bind_eq_ok_iff.mp hn
    cases hn
    rw [nodesOf, List.forall_mem_append] at hP
    rw [EverywhereIn]
    exact ⟨took_of_named ht hP.1 above, took_of_allNamed hus hP.2 above⟩

end

end Tree

namespace Evaluating

variable {scope : NodeScope} {forest : List (Tree Nat)} {e e' : Evaluation}

/-- The ids that the nodes of new trees take are pairwise distinct, and none of them was kept before. -/
theorem takes_of_evaluates (h : Evaluates scope forest e e') (hn : Tree.New e.met (Tree.nodesOf forest))
    (ho : e.Owned) (ha : ∀ n ∈ Tree.nodesOf forest, n.2.AuthorsText) :
    ∃ ts, Tree.allNamed forest e.supply = (.ok ts, e'.supply) ∧
      e'.met = e.met ++ (Tree.nodesOf forest).map (·.1) ∧ e'.Owned ∧
      e.Takes (Tree.each Branch.takenId? ts) e' := by
  induction h with
  | nil scope e => exact ⟨[], rfl, (List.append_nil _).symm, ho, .refl e⟩
  | literal v _ ih =>
    obtain ⟨ts, hts, hmet, ho', htakes⟩ := ih hn ho ha
    refine ⟨.literal v :: ts, ?_, hmet, ho', htakes⟩
    rw [Tree.allNamed, Attempt.bind_apply, Tree.named]
    simp only [Attempt.pure_apply, Attempt.bind_apply, hts]
  | @leaf _ mark node children rest _ e₁ _ hv hc _ ih =>
    rw [Tree.nodesOf, Tree.nodes, hc, List.singleton_append] at hn ha ⊢
    obtain ⟨hnode, hrest⟩ := List.forall_mem_cons.mp ha
    obtain ⟨id, hid, hmet, ho₁, htakes⟩ := takes_of_visit hv hn.not_mem ho hnode
    obtain ⟨us, hus, hmet', ho', htakes'⟩ := ih (hmet ▸ hn.tail) ho₁ hrest
    obtain ⟨ts, hts, hnodes⟩ := Tree.allNamed_of_nodesOf hc e₁.supply
    refine ⟨.node id node ts :: us, Tree.allNamed_node hid hts hus mark, ?_, ho', ?_⟩
    · rw [hmet', hmet, List.append_assoc]
      rfl
    · rw [Tree.each_cons, Tree.each_node _ ⟨id, node, ts⟩, Tree.each_of_nodesOf _ hnodes, List.append_nil]
      exact htakes.trans htakes'
  | @branch _ _ mark node children rest _ e₁ e₂ _ hv _ _ ihc ihr =>
    rw [Tree.nodesOf, Tree.nodes, List.cons_append] at hn ha ⊢
    obtain ⟨hnode, hrest⟩ := List.forall_mem_cons.mp ha
    obtain ⟨hchildren, hrest⟩ := List.forall_mem_append.mp hrest
    obtain ⟨id, hid, hmet, ho₁, htakes⟩ := takes_of_visit hv hn.not_mem ho hnode
    obtain ⟨hnew, hnew'⟩ := hn.tail.append
    obtain ⟨ts, hts, hmet₂, ho₂, htakes₂⟩ := ihc (hmet ▸ hnew) ho₁ hchildren
    obtain ⟨us, hus, hmet', ho', htakes'⟩ := ihr (by rw [hmet₂, hmet]; exact hnew') ho₂ hrest
    refine ⟨.node id node ts :: us, Tree.allNamed_node hid hts hus mark, ?_, ho', ?_⟩
    · rw [hmet', hmet₂, hmet, List.map_cons, List.map_append, List.append_assoc, List.append_assoc]
      rfl
    · rw [Tree.each_cons, Tree.each_node _ ⟨id, node, ts⟩]
      exact (htakes.trans htakes₂).trans htakes'

end Evaluating

end SceneTree
