import SceneTree.Proofs.Evaluation.Runs
import SceneTree.Proofs.Translation.Fills

/-!
# Giving ids to a tree

The ids of a tree whose nodes are all new do not depend on the document: one walk gives them out, authored ids being
reserved and the others drawn as the nodes come. An evaluation that succeeds on such a tree is this walk and a filling
of the document side by side.
-/

namespace SceneTree

/-- A new id from a supply. -/
def IdSupply.fresh : Attempt IdSupply String := fun supply =>
  let (outcome, pool, source) := supply.pool.next supply.source IdPool.defaultLength
  (outcome, ⟨pool, source⟩)

/-- The id that a new node takes from a supply, null if nodes of its kind have none. -/
def Node.takeId (node : Node) : Attempt IdSupply Value :=
  match node.requestedId? with
  | none => pure .null
  | some authored =>
    if authored.truthy then do
      Attempt.update fun supply => { supply with pool := supply.pool.reserve authored }
      pure authored
    else do
      let id ← IdSupply.fresh
      pure (.str id)

/-- What a new node takes: nothing, the authored id, or a new one. -/
theorem Node.takeId_apply (node : Node) (supply : IdSupply) :
    node.takeId supply =
      match node.requestedId? with
      | none => (.ok .null, supply)
      | some authored =>
        if authored.truthy then (.ok authored, { supply with pool := supply.pool.reserve authored })
        else
          match supply.pool.next supply.source IdPool.defaultLength with
          | (.ok s, pool, source) => (.ok (.str s), ⟨pool, source⟩)
          | (.error fault, pool, source) => (.error fault, ⟨pool, source⟩) := by
  unfold Node.takeId
  cases node.requestedId? with
  | none => rfl
  | some authored =>
    simp only
    split
    · rfl
    · simp only [Attempt.bind_apply, IdSupply.fresh]
      rcases supply.pool.next supply.source IdPool.defaultLength with ⟨_ | s, pool, source⟩ <;> rfl

namespace Tree

mutual

/-- A tree whose nodes carry the ids that they take from a supply, parents before children. -/
def named : Tree Nat → Attempt IdSupply (Tree Value)
  | .node _ data children => do
    let id ← data.takeId
    let children ← allNamed children
    pure (.node id data children)
  | .literal v => pure (.literal v)

/-- Trees whose nodes carry the ids that they take from a supply. -/
def allNamed : List (Tree Nat) → Attempt IdSupply (List (Tree Value))
  | [] => pure []
  | t :: rest => do
    let t ← named t
    let rest ← allNamed rest
    pure (t :: rest)

end

/-- The marks of some nodes are new and pairwise distinct. -/
def New (met : List Nat) (nodes : List (Nat × Node)) : Prop := (met ++ nodes.map (·.1)).Nodup

end Tree

namespace Evaluation

/-- The handles of an evaluation are those of the nodes that were met, in the table of ids and in the document. -/
structure Tidy (e : Evaluation) : Prop where
  bound : ∀ handle id, e.idOf? handle = some id → handle < e.met.length
  fresh : e.document.Fresh e.met.length

variable {e : Evaluation} {mark : Nat}

theorem Tidy.idOf?_length (h : e.Tidy) : e.idOf? e.met.length = none := by
  cases hi : e.idOf? e.met.length with
  | none => rfl
  | some id => exact absurd (h.bound _ id hi) (Nat.lt_irrefl _)

/-- A new node gets the next handle. -/
theorem handleFor_of_new (h : mark ∉ e.met) : e.handleFor mark = e.met.length := by
  unfold handleFor handle?
  rw [List.idxOf?_eq_none_iff.mpr h]
  rfl

theorem met_enter_of_new (h : mark ∉ e.met) (node : Node) : (e.enter mark node).met = e.met ++ [mark] :=
  met_enter_of_not_mem (List.idxOf?_eq_none_iff.mpr h)

end Evaluation

namespace Evaluating

variable {node : Node} {n : Handle} {e e' : Evaluation} {id : Value}

/-- A new handle gets the id that a new node takes from the supply. -/
theorem takeId_of_request (h : request node n e = (.ok id, e')) (hn : e.idOf? n = none) :
    node.takeId e.supply = (.ok id, e'.supply) := by
  unfold request at h
  rw [Node.takeId_apply]
  cases hr : node.requestedId? with
  | none =>
    rw [hr] at h
    cases h
    rfl
  | some authored =>
    rw [hr] at h
    simp only [instanceId_apply, hn] at h
    simp only
    split at h
    · next ht =>
      rw [if_pos ht]
      split at h
      · cases h
      · split at h
        · cases h
        · cases h
          rfl
    · next ht =>
      rw [if_neg ht]
      rcases hf : e.supply.pool.next e.supply.source IdPool.defaultLength with ⟨_ | s, pool, source⟩
      · simp only [freshId, hf] at h
        cases h
      · simp only [freshId, hf] at h
        cases h
        rfl

/-- A request gives an id to one handle only. -/
theorem bound_of_request (h : request node n e = (.ok id, e'))
    (hb : ∀ handle id, e.idOf? handle = some id → handle < n + 1) :
    ∀ handle id, e'.idOf? handle = some id → handle < n + 1 := by
  intro handle i hi
  by_cases hh : handle = n
  · rw [hh]
    exact Nat.lt_succ_self n
  · rw [idOf?_of_request_eq_ok h hh] at hi
    exact hb handle i hi

/-- Nothing that a contribution does takes a project off the record. -/
theorem populatedBy_contribute (node : Node) (literals : List Value) (scope : NodeScope) (handle : Handle) (id : Value)
    (doc : Document) : doc.populatedBy <+: (contribute node literals scope handle id doc).2.populatedBy := by
  unfold contribute
  generalize node.kind = kind
  match kind with
  | .project => exact (Document.Later.populate doc _ handle).populatedBy
  | .fragment | .scene | .object | .sprite | .textBox | .variable | .message | .function | .table =>
    exact List.prefix_refl _
  | .picture | .sound =>
    simp only
    split <;> exact List.prefix_refl _
  | .localVariable =>
    simp only
    split <;> exact List.prefix_refl _
  | .statement | .param =>
    simp only [deliver]
    split <;> exact List.prefix_refl _
  | .script =>
    simp only [deliver]
    split
    · split <;> exact List.prefix_refl _
    · exact List.prefix_refl _
  | .node | .namedParam | .variableParam | .objectParam | .pictureParam | .soundParam =>
    simp only [deliver]
    split
    · split <;> exact List.prefix_refl _
    · exact List.prefix_refl _

/-- Nothing that a visit does takes a project off the record. -/
theorem visit_keeps_populatedBy (record : List Handle) (mark : Nat) (node : Node) (literals : List Value)
    (scope : NodeScope) : (visit mark node literals scope).Keeps fun e => record <+: e.document.populatedBy := by
  intro e he
  rw [visit_apply, staged_apply]
  split
  · exact he
  · have hd := document_request node (e.handleFor mark) (e.enter mark node)
    split
    · next hr =>
      rw [hr] at hd
      simp only at hd ⊢
      rw [hd]
      exact he
    · next hr =>
      rw [hr] at hd
      simp only at hd ⊢
      rw [hd]
      exact he.trans (populatedBy_contribute _ _ _ _ _ _)

end Evaluating

namespace Tree

/-- Plain values have no ids. -/
theorem literals_map_literal (vs : List Value) : literals (vs.map fun v => (.literal v : Tree Value)) = vs := by
  induction vs with
  | nil => rfl
  | cons v rest ih => rw [List.map_cons, literals, ih]

/-- Giving ids leaves the plain values among some trees alone. -/
theorem literals_of_allNamed {children : List (Tree Nat)} {ts : List (Tree Value)} {supply supply' : IdSupply}
    (h : allNamed children supply = (.ok ts, supply')) : literals ts = literals children := by
  induction children generalizing ts supply with
  | nil =>
    cases h
    rfl
  | cons t rest ih =>
    rw [allNamed, Attempt.bind_eq_ok_iff] at h
    obtain ⟨t', s₁, ht, h⟩ := h
    obtain ⟨ts', s₂, hts, h⟩ := Attempt.bind_eq_ok_iff.mp h
    cases h
    cases t with
    | literal v =>
      rw [named] at ht
      cases ht
      rw [literals, literals, ih hts]
    | node mark data children =>
      rw [named, Attempt.bind_eq_ok_iff] at ht
      obtain ⟨id, s₃, -, ht⟩ := ht
      obtain ⟨cs, s₄, -, ht⟩ := Attempt.bind_eq_ok_iff.mp ht
      cases ht
      rw [literals, literals, ih hts]

/-- The first of some new nodes is new. -/
theorem New.not_mem {met : List Nat} {mark : Nat} {node : Node} {nodes : List (Nat × Node)}
    (h : New met ((mark, node) :: nodes)) : mark ∉ met := by
  intro hm
  exact (List.nodup_append.mp h).2.2 mark hm mark List.mem_cons_self rfl

/-- The nodes after the first of some new nodes are new when it has been met. -/
theorem New.tail {met : List Nat} {mark : Nat} {node : Node} {nodes : List (Nat × Node)}
    (h : New met ((mark, node) :: nodes)) : New (met ++ [mark]) nodes := by
  unfold New at h ⊢
  rw [List.append_assoc]
  exact h

/-- New nodes in a row: the first ones are new, and the others when those have been met. -/
theorem New.append {met : List Nat} {first rest : List (Nat × Node)} (h : New met (first ++ rest)) :
    New met first ∧ New (met ++ first.map (·.1)) rest := by
  unfold New at h ⊢
  rw [List.map_append, ← List.append_assoc] at h
  exact ⟨(List.nodup_append.mp h).1, h⟩

end Tree

namespace Evaluating

/-- A visit of a new node takes its id from the supply and makes its contribution under the next handle. -/
theorem visit_new {mark : Nat} {node : Node} {literals : List Value} {scope : NodeScope} {e e₁ : Evaluation}
    {out : Option NodeScope} (h : visit mark node literals scope e = (.ok out, e₁)) (hm : mark ∉ e.met)
    (ht : e.Tidy) (hw : scope.Within e.document) :
    ∃ id, node.takeId e.supply = (.ok id, e₁.supply) ∧ e₁.met = e.met ++ [mark] ∧ e₁.Tidy ∧
      admission node literals scope e.document = .ok () ∧
      contribute node literals scope e.met.length id e.document = (.ok out, e₁.document) ∧
      ∀ inner, out = some inner → inner.Within e₁.document := by
  have hmet := Evaluation.met_enter_of_new hm node
  rw [visit_apply, Evaluation.handleFor_of_new hm, staged_apply] at h
  cases ha : admission node literals scope (e.enter mark node).document with
  | error _ =>
    rw [ha] at h
    cases h
  | ok _ =>
    rw [ha] at h
    simp only at h
    rcases hr : request node e.met.length (e.enter mark node) with ⟨_ | id, e₂⟩
    · rw [hr] at h
      cases h
    · rw [hr] at h
      simp only [Prod.mk.injEq] at h
      obtain ⟨hout, rfl⟩ := h
      have hid := takeId_of_request hr ht.idOf?_length
      have hmet₂ := met_request node e.met.length (e.enter mark node)
      have hdoc₂ := document_request node e.met.length (e.enter mark node)
      rw [hr] at hmet₂ hdoc₂
      simp only at hmet₂ hdoc₂
      rw [hdoc₂] at hout ⊢
      have hc : contribute node literals scope e.met.length id e.document =
          (.ok out, (contribute node literals scope e.met.length id e.document).2) := Prod.ext hout rfl
      have heff : Effect scope e.met.length e.document ⟨id, node, literals.map .literal⟩ out
          (contribute node literals scope e.met.length id e.document).2 := by
        refine .of_contribute ?_ ?_
        · rw [Tree.literals_map_literal]
          exact ha
        · rw [Tree.literals_map_literal]
          exact hc
      refine ⟨id, hid, hmet₂.trans hmet, ⟨?_, ?_⟩, ha, hc, ?_⟩
      · intro handle i hi
        simp only [hmet₂, hmet, List.length_append, List.length_cons, List.length_nil]
        exact bound_of_request hr (fun handle i hi => Nat.lt_succ_of_lt (ht.bound handle i hi)) handle i hi
      · simp only [hmet₂, hmet, List.length_append, List.length_cons, List.length_nil]
        exact heff.fresh ht.fresh hw
      · rintro inner rfl
        exact heff.within hw

/-- A project that fills the document as the only one is the first to do so. -/
theorem first_of_populate {doc doc' : Document} {head : ProjectHead} {n : Handle} (hb : doc.Below n)
    (hl : (doc.populate head n).populatedBy <+: doc'.populatedBy) (hone : doc'.populatedBy.length ≤ 1) :
    doc.populatedBy = [] := by
  have hc : doc.populatedBy.contains n = false := by
    rw [← Bool.not_eq_true, List.contains_iff_mem]
    exact fun hm => Nat.lt_irrefl n (hb.populatedBy n hm)
  unfold Document.populate at hl
  simp only [hc, Bool.false_eq_true, if_false] at hl
  have hle := hl.length_le
  rw [List.length_append, List.length_cons, List.length_nil] at hle
  exact List.length_eq_zero_iff.mp (by omega)

theorem first_of_contribute {node : Node} {literals : List Value} {scope : NodeScope} {n : Handle} {id : Value}
    {doc doc₁ doc' : Document} {out : Option NodeScope}
    (hc : contribute node literals scope n id doc = (.ok out, doc₁)) (hb : doc.Below n)
    (hl : doc₁.populatedBy <+: doc'.populatedBy) (hone : doc'.populatedBy.length ≤ 1) (hk : node.kind = .project) :
    doc.populatedBy = [] := by
  simp only [contribute, hk] at hc
  cases hc
  exact first_of_populate hb hl hone

/-- Children of a node that takes none are plain values, and nothing happens. -/
theorem of_evaluateChildren_none {parent : Node} {children : List (Tree Nat)} {e e' : Evaluation}
    (h : evaluateChildren parent none children e = (.ok (), e')) :
    e' = e ∧ Tree.nodesOf children = [] ∧
      ∀ supply, ∃ ts, Tree.allNamed children supply = (.ok ts, supply) ∧ Tree.nodesOf ts = [] := by
  induction children with
  | nil =>
    rw [evaluateChildren] at h
    cases h
    exact ⟨rfl, rfl, fun supply => ⟨[], rfl, rfl⟩⟩
  | cons t rest ih =>
    cases t with
    | node mark data children =>
      rw [evaluateChildren_node] at h
      cases h
    | literal v =>
      rw [evaluateChildren_literal] at h
      split at h
      · obtain ⟨rfl, hcs, hts⟩ := ih h
        refine ⟨rfl, by rw [Tree.nodesOf, Tree.nodes, hcs]; rfl, fun supply => ?_⟩
        obtain ⟨ts, hts, hnodes⟩ := hts supply
        refine ⟨.literal v :: ts, ?_, ?_⟩
        · rw [Tree.allNamed, Attempt.bind_apply, Tree.named]
          simp only [Attempt.pure_apply, Attempt.bind_apply, hts]
        · rw [Tree.nodesOf, Tree.nodes, hnodes]
          rfl
      · cases h

/-- Plain values among the children of a node are passed over only if the node is a parameter. -/
theorem kind_of_evaluateChildren {parent : Node} {inner : Option NodeScope} {children : List (Tree Nat)}
    {e e' : Evaluation} (h : evaluateChildren parent inner children e = (.ok (), e'))
    (hl : Tree.literals children ≠ []) : parent.kind = .param := by
  induction children generalizing e with
  | nil => exact absurd rfl hl
  | cons t rest ih =>
    cases t with
    | literal v =>
      rw [evaluateChildren_literal] at h
      split at h
      · next hk => exact hk
      · cases h
    | node mark data children =>
      rw [evaluateChildren_node] at h
      cases inner with
      | none => cases h
      | some scope =>
        obtain ⟨_, e₁, -, h⟩ := Attempt.bind_eq_ok_iff.mp h
        exact ih h hl

mutual

/-- An evaluation of new nodes that succeeds gives out ids and fills the document. -/
theorem fills_of_evaluate (tree : Tree Nat) {scope : NodeScope} {e e' : Evaluation}
    (h : evaluate tree scope e = (.ok (), e')) (hn : Tree.New e.met tree.nodes) (ht : e.Tidy)
    (hw : scope.Within e.document) (hone : e'.document.populatedBy.length ≤ 1) :
    ∃ t, tree.named e.supply = (.ok t, e'.supply) ∧
      Fills scope [t] e.met.length e.document e'.met.length e'.document ∧
      e'.met = e.met ++ tree.nodes.map (·.1) ∧ e'.Tidy := by
  match tree with
  | .literal _ =>
    rw [evaluate] at h
    cases h
  | .node mark node children =>
    rw [Tree.nodes] at hn
    rw [evaluate_node, Attempt.bind_eq_ok_iff] at h
    obtain ⟨out, e₁, hv, hc⟩ := h
    obtain ⟨id, hid, hmet, ht₁, hadm, hcon, hin⟩ := visit_new hv hn.not_mem ht hw
    have hkind := kind_of_evaluateChildren hc
    have hlen : e.met.length + 1 = e₁.met.length := by rw [hmet, List.length_append]; rfl
    cases out with
    | none =>
      obtain ⟨rfl, hcs, hts⟩ := of_evaluateChildren_none hc
      obtain ⟨ts, hts, hnodes⟩ := hts e'.supply
      have hlit := Tree.literals_of_allNamed hts
      have hb : Contributes scope e.met.length e.document ⟨id, node, ts⟩ none e'.document :=
        ⟨ht.fresh, hw, first_of_contribute hcon ht.fresh.below (List.prefix_refl _) hone, hlit ▸ hkind, hlit ▸ hadm,
          hlit ▸ hcon⟩
      refine ⟨.node id node ts, ?_, .leaf hb hnodes (hlen ▸ .nil _ _ _), ?_, ht₁⟩
      · rw [Tree.named, Attempt.bind_apply_of_ok hid, Attempt.bind_apply_of_ok hts]
        rfl
      · rw [hmet, Tree.nodes, hcs]
        rfl
    | some inner =>
      obtain ⟨ts, hts, hfill, hmet', ht'⟩ :=
        fills_of_evaluateChildren children hc (hmet ▸ hn.tail) ht₁ (hin inner rfl) hone
      have hlit := Tree.literals_of_allNamed hts
      have hb : Contributes scope e.met.length e.document ⟨id, node, ts⟩ (some inner) e₁.document :=
        ⟨ht.fresh, hw, first_of_contribute hcon ht.fresh.below hfill.later.populatedBy hone, hlit ▸ hkind,
          hlit ▸ hadm, hlit ▸ hcon⟩
      refine ⟨.node id node ts, ?_, .branch hb (hlen ▸ hfill) (.nil _ _ _), ?_, ht'⟩
      · rw [Tree.named, Attempt.bind_apply_of_ok hid, Attempt.bind_apply_of_ok hts]
        rfl
      · rw [hmet', hmet, List.append_assoc]
        rfl

/-- Evaluations of new nodes that succeed one after the other give out ids and fill the document. -/
theorem fills_of_evaluateChildren (children : List (Tree Nat)) {parent : Node} {scope : NodeScope}
    {e e' : Evaluation} (h : evaluateChildren parent (some scope) children e = (.ok (), e'))
    (hn : Tree.New e.met (Tree.nodesOf children)) (ht : e.Tidy) (hw : scope.Within e.document)
    (hone : e'.document.populatedBy.length ≤ 1) :
    ∃ ts, Tree.allNamed children e.supply = (.ok ts, e'.supply) ∧
      Fills scope ts e.met.length e.document e'.met.length e'.document ∧
      e'.met = e.met ++ (Tree.nodesOf children).map (·.1) ∧ e'.Tidy := by
  match children with
  | [] =>
    rw [evaluateChildren] at h
    cases h
    exact ⟨[], rfl, .nil _ _ _, (List.append_nil _).symm, ht⟩
  | .literal v :: rest =>
    rw [evaluateChildren_literal] at h
    split at h
    · obtain ⟨ts, hts, hfill, hmet, ht'⟩ := fills_of_evaluateChildren rest h hn ht hw hone
      refine ⟨.literal v :: ts, ?_, .literal v hfill, hmet, ht'⟩
      rw [Tree.allNamed, Attempt.bind_apply, Tree.named]
      simp only [Attempt.pure_apply, Attempt.bind_apply, hts]
    · cases h
  | .node mark node children :: rest =>
    rw [Tree.nodesOf] at hn ⊢
    rw [evaluateChildren_node] at h
    obtain ⟨_, e₁, hf, hr⟩ := Attempt.bind_eq_ok_iff.mp h
    have hone₁ : e₁.document.populatedBy.length ≤ 1 := by
      have hk := evaluateChildren_keeps (P := fun _ _ => True)
        (fun mark node literals scope _ => visit_keeps_populatedBy e₁.document.populatedBy mark node literals scope)
        parent (some scope) rest (fun _ _ => trivial) e₁ (List.prefix_refl _)
      rw [hr] at hk
      exact Nat.le_trans hk.length_le hone
    obtain ⟨t, ht₁, hfill, hmet, htidy⟩ := fills_of_evaluate (.node mark node children) hf hn.append.1 ht hw hone₁
    have hw₁ : scope.Within e₁.document := hw.later hfill.later
    obtain ⟨ts, hts, hfills, hmet', ht'⟩ := fills_of_evaluateChildren rest hr (hmet ▸ hn.append.2) htidy hw₁ hone
    refine ⟨t :: ts, ?_, hfill.cons hfills, ?_, ht'⟩
    · rw [Tree.allNamed, Attempt.bind_apply, ht₁]
      simp only [Attempt.bind_apply, hts, Attempt.pure_apply]
    · rw [hmet', hmet, List.map_append, List.append_assoc]

end

end Evaluating

end SceneTree
