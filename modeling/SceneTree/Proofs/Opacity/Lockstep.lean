import SceneTree.Proofs.Opacity.Veil
import SceneTree.Proofs.Repetition.Furnishing
import SceneTree.Proofs.Translation.Head

/-!
# Documents in lockstep

Two documents that are furnished with one tree differ in the ids of the nodes alone. Under veils that put the handles of
the nodes in the place of their ids they are the same all the time: what every node contributes is the same under the
veils. The interface is kept apart, since a project may say for itself what stands where the object is shown; as long as
no object is selected, that is the same in both documents.
-/

namespace SceneTree

/-- A veil puts the handle of a node in the place of the id that the node asked for. -/
structure Veil.Covers (v : Veil) (grants : Grants) (mark : Nat) (node : Node) : Prop where
  onId : node.requestedId?.isSome = true → v.onId (grants.id mark) = .int (grants.handle mark)
  onLocalId : node.kind = .localVariable → ∀ function,
    v.onLocalId function (node.localEntry (grants.id mark) function).id = .int (grants.handle mark)

/-- What two documents say of their interfaces. Either they say the same, and no object with one of some handles has an
entry; or there are such handles, and both show an object, the same under the veils. -/
def Document.InterfacesAlike (selects : Handle → Prop) (v v' : Veil) (doc doc' : Document) : Prop :=
  (doc.head.interface = doc'.head.interface ∧ ∀ p ∈ doc.objects.entries, ¬ selects p.1) ∨
    (∃ n, selects n) ∧ ∃ entries id id', doc.head.interface = Entries.put entries (.str "object") id ∧
      doc'.head.interface = Entries.put entries (.str "object") id' ∧ v.onId id = v'.onId id'

/-- Two documents that are the same under their veils. -/
structure Document.Alike (selects : Handle → Prop) (v v' : Veil) (doc doc' : Document) : Prop where
  veiled : doc.veiled v = doc'.veiled v'
  interface : doc.InterfacesAlike selects v v' doc'

/-- A node has the same handle in two documents, which the veils put in the place of its ids, and if it is an object,
the handle is one of some handles just if it is selected. -/
structure Grants.Pair (selects : Handle → Prop) (v v' : Veil) (grants grants' : Grants) (mark : Nat) (node : Node) :
    Prop where
  handle : grants.handle mark = grants'.handle mark
  left : v.Covers grants mark node
  right : v'.Covers grants' mark node
  selected : node.kind.isObject = true → (selects (grants.handle mark) ↔ (node.get .selected).truthy = true)

section

variable {selects : Handle → Prop} {v v' : Veil} {scope scope' : NodeScope} {n : Handle}
  {doc doc' doc₁ doc₁' : Document} {b b' : Branch} {out out' : Option NodeScope}

/-- Nothing but projects and objects changes what the document says of itself and which objects it has. -/
theorem Effect.head_eq (h : Effect scope n doc b out doc₁) (hp : b.kind ≠ .project) (ho : b.kind.isObject = false) :
    doc₁.head = doc.head ∧ doc₁.objects = doc.objects := by
  cases h with
  | project hk => exact absurd hk hp
  | object hk =>
    rw [hk] at ho
    cases ho
  | _ => exact ⟨rfl, rfl⟩

/-- What comes of a node in both documents says the same of the interface as before, or shows an object that is the same
under the veils. -/
theorem Document.Alike.interface_of_effect (ha : doc.Alike selects v v' doc') (hnode : b'.node = b.node)
    (hid : v.onId b.id = v'.onId b'.id)
    (hsel : b.kind.isObject = true → (selects n ↔ (b.node.get .selected).truthy = true))
    (h : Effect scope n doc b out doc₁) (h' : Effect scope' n doc' b' out' doc₁') :
    doc₁.InterfacesAlike selects v v' doc₁' := by
  have hkind : b'.kind = b.kind := congrArg Node.kind hnode
  by_cases hp : b.kind = .project
  · obtain ⟨-, rfl⟩ := h.of_project hp
    obtain ⟨-, rfl⟩ := h'.of_project (hkind.trans hp)
    exact .inl ⟨congrArg (fun node : Node => node.projectHead.interface) hnode.symm,
      fun p hp => absurd hp List.not_mem_nil⟩
  cases ho : b.kind.isObject with
  | false =>
    obtain ⟨hhead, hobjects⟩ := h.head_eq hp ho
    obtain ⟨hhead', -⟩ := h'.head_eq (fun hp' => hp (hkind.symm.trans hp')) (hkind ▸ ho)
    unfold InterfacesAlike
    rw [hhead, hhead', hobjects]
    exact ha.interface
  | true =>
    obtain ⟨scene, -, -, rfl⟩ := h.of_isObject ho
    obtain ⟨scene', -, -, rfl⟩ := h'.of_isObject (hkind ▸ ho)
    cases hs : (b.node.get .selected).truthy with
    | false =>
      rw [hnode, hs]
      refine ha.interface.imp_left fun ⟨hi, hno⟩ => ⟨hi, fun p hp hsp => ?_⟩
      rcases Roster.of_mem_insert hp with hp | rfl
      · exact hno p hp hsp
      · exact absurd ((hsel ho).mp hsp) (by rw [hs]; exact Bool.false_ne_true)
    | true =>
      rw [hnode, hs]
      refine .inr ⟨⟨n, (hsel ho).mpr hs⟩, ?_⟩
      rcases ha.interface with ⟨hi, -⟩ | ⟨-, entries, id, id', hi, hi', -⟩
      · refine ⟨doc.head.interface, b.id, b'.id, rfl, ?_, hid⟩
        rw [hi]
        rfl
      · refine ⟨entries, b.id, b'.id, ?_, ?_, hid⟩
        · change Entries.put doc.head.interface _ _ = _
          rw [hi]
          exact Entries.put_put _ _ _ _
        · change Entries.put doc'.head.interface _ _ = _
          rw [hi']
          exact Entries.put_put _ _ _ _

end

namespace Evaluating

variable {selects : Handle → Prop} {v v' : Veil} {grants grants' : Grants} {mark : Nat} {node : Node}
  {literals : List Value} {scope scope' : NodeScope} {doc doc' doc₁ doc₁' : Document} {out out' : Option NodeScope}

/-- There is an id under which a node contributes the same as under its own, and which the veil puts its handle or null
in the place of. -/
theorem exists_id_of_covers (hnull : v.onId .null = .null) (h : v.Covers grants mark node) (literals : List Value)
    (scope : NodeScope) (n : Handle) :
    ∃ id, contribute node literals scope n (grants.id mark) = contribute node literals scope n id ∧
      v.onId id = (if node.requestedId?.isSome then .int (grants.handle mark) else .null) ∧
      (node.kind = .localVariable → ∀ function, v.onLocalId function (node.localEntry id function).id = v.onId id) := by
  cases hreq : node.requestedId? with
  | none =>
    refine ⟨.null, contribute_of_requestedId?_none hreq literals scope n _ _, hnull, fun hk => ?_⟩
    unfold Node.requestedId? at hreq
    rw [hk] at hreq
    cases hreq
  | some authored =>
    have hid := h.onId (by rw [hreq]; rfl)
    exact ⟨grants.id mark, rfl, hid, fun hk function => (h.onLocalId hk function).trans hid.symm⟩

/-- A node leaves two documents alike, and its children two scopes that are the same under the veils. -/
theorem alike_furnishNode (hnull : v.onId .null = .null) (hnull' : v'.onId .null = .null)
    (hp : grants.Pair selects v v' grants' mark node) (hs : v.onScope scope = v'.onScope scope')
    (ha : doc.Alike selects v v' doc') (h : furnishNode grants mark node literals scope doc = (.ok out, doc₁))
    (h' : furnishNode grants' mark node literals scope' doc' = (.ok out', doc₁')) :
    out.map v.onScope = out'.map v'.onScope ∧ doc₁.Alike selects v v' doc₁' := by
  obtain ⟨hadmission, hc⟩ := furnishNode_eq_ok_iff.mp h
  obtain ⟨hadmission', hc'⟩ := furnishNode_eq_ok_iff.mp h'
  obtain ⟨id, hsame, hid, hlocal⟩ := exists_id_of_covers hnull hp.left literals scope (grants.handle mark)
  obtain ⟨id', hsame', hid', hlocal'⟩ := exists_id_of_covers hnull' hp.right literals scope' (grants'.handle mark)
  rw [hsame] at hc
  rw [hsame', ← hp.handle] at hc'
  rw [← hp.handle] at hid'
  have hids : v.onId id = v'.onId id' := hid.trans hid'.symm
  obtain ⟨hout, hdoc⟩ := veiled_contribute v doc scope literals (grants.handle mark) hnull hlocal
  obtain ⟨hout', hdoc'⟩ := veiled_contribute v' doc' scope' literals (grants.handle mark) hnull' hlocal'
  rw [hc, hs, ha.veiled, hids] at hout hdoc
  rw [hc'] at hout' hdoc'
  have hinner : Except.ok (out.map v.onScope) = (Except.ok (out'.map v'.onScope) : Except Fault (Option NodeScope)) :=
    hout.symm.trans hout'
  refine ⟨Except.ok.inj hinner, hdoc.symm.trans hdoc', ?_⟩
  have heffect : Effect scope (grants.handle mark) doc ⟨id, node, literals.map .literal⟩ out doc₁ :=
    .of_contribute (by rw [Tree.literals_map_literal]; exact hadmission) (by rw [Tree.literals_map_literal]; exact hc)
  have heffect' : Effect scope' (grants.handle mark) doc' ⟨id', node, literals.map .literal⟩ out' doc₁' :=
    .of_contribute (by rw [Tree.literals_map_literal]; exact hadmission') (by rw [Tree.literals_map_literal]; exact hc')
  refine ha.interface_of_effect ?_ ?_ ?_ heffect heffect'
  exacts [rfl, hids, hp.selected]

mutual

/-- A tree leaves two documents alike that it furnishes. -/
theorem alike_furnish (tree : Tree Nat) {scope scope' : NodeScope} {doc doc' doc₁ doc₁' : Document}
    (hnull : v.onId .null = .null) (hnull' : v'.onId .null = .null)
    (hp : ∀ n ∈ tree.nodes, grants.Pair selects v v' grants' n.1 n.2) (hs : v.onScope scope = v'.onScope scope')
    (ha : doc.Alike selects v v' doc') (h : furnish grants tree scope doc = (.ok (), doc₁))
    (h' : furnish grants' tree scope' doc' = (.ok (), doc₁')) : doc₁.Alike selects v v' doc₁' := by
  match tree with
  | .literal _ =>
    rw [furnish] at h
    cases h
  | .node mark node children =>
    rw [Tree.nodes, List.forall_mem_cons] at hp
    rw [furnish] at h h'
    obtain ⟨out, doc₂, hnode, h⟩ := Attempt.bind_eq_ok_iff.mp h
    obtain ⟨out', doc₂', hnode', h'⟩ := Attempt.bind_eq_ok_iff.mp h'
    obtain ⟨hinner, ha₂⟩ := alike_furnishNode hnull hnull' hp.1 hs ha hnode hnode'
    exact alike_furnishAll children hnull hnull' hp.2 hinner ha₂ h h'

/-- The same of the children of a node. -/
theorem alike_furnishAll (children : List (Tree Nat)) {parent : Node} {inner inner' : Option NodeScope}
    {doc doc' doc₁ doc₁' : Document} (hnull : v.onId .null = .null) (hnull' : v'.onId .null = .null)
    (hp : ∀ n ∈ Tree.nodesOf children, grants.Pair selects v v' grants' n.1 n.2)
    (hs : inner.map v.onScope = inner'.map v'.onScope) (ha : doc.Alike selects v v' doc')
    (h : furnishAll grants parent inner children doc = (.ok (), doc₁))
    (h' : furnishAll grants' parent inner' children doc' = (.ok (), doc₁')) : doc₁.Alike selects v v' doc₁' := by
  match children with
  | [] =>
    rw [furnishAll] at h h'
    cases h
    cases h'
    exact ha
  | .literal _ :: rest =>
    rw [furnishAll_literal] at h h'
    split at h
    · next hk =>
      rw [if_pos hk] at h'
      exact alike_furnishAll rest hnull hnull' hp hs ha h h'
    · cases h
  | .node mark node children :: rest =>
    rw [Tree.nodesOf, List.forall_mem_append] at hp
    rw [furnishAll_node] at h h'
    match inner, inner', hs with
    | none, _, _ => cases h
    | some scope, some scope', hs =>
      obtain ⟨_, doc₂, hfirst, h⟩ := Attempt.bind_eq_ok_iff.mp h
      obtain ⟨_, doc₂', hfirst', h'⟩ := Attempt.bind_eq_ok_iff.mp h'
      have ha₂ := alike_furnish (.node mark node children) hnull hnull' hp.1 (Option.some_inj.mp hs) ha hfirst hfirst'
      exact alike_furnishAll rest hnull hnull' hp.2 hs ha₂ h h'

end

end Evaluating

end SceneTree
