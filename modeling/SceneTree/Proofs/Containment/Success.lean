import SceneTree.Proofs.Containment.Admission

/-!
# What keeps the rules is evaluated

A node that is admitted contributes, since what its scope names is there, and gets its id, unless that is taken. `Clear`
says that no authored id is taken when its node is reached. So the evaluation of a tree that keeps the rules does not
fail on the way.
-/

namespace SceneTree

namespace Branch

/-- The id that is authored on a node that is to have one. -/
def authoredId? (b : Branch) : Option Value := b.node.requestedId?.filter (·.truthy)

/-- The id of a node that is to have one and on which none is authored: one that is drawn. -/
def drawnId? (b : Branch) : Option Value :=
  if b.node.requestedId?.any fun authored => !authored.truthy then some b.id else none

end Branch

namespace Tree

/-- What the nodes of a tree and of the trees after it have to offer. -/
theorem each_cons {α : Type} (piece : Branch → Option α) (t : Tree Value) (rest : List (Tree Value)) :
    each piece (t :: rest) = each piece [t] ++ each piece rest := by
  unfold each
  rw [gatherOf, gatherOf, gatherOf, List.append_nil]

/-- What a node offers comes before what is below it. -/
theorem each_node {α : Type} (piece : Branch → Option α) (b : Branch) :
    each piece [.node b.id b.node b.children] = (piece b).toList ++ each piece b.children := by
  unfold each
  rw [gatherOf_node, gatherOf, List.append_nil]

end Tree

/-- No authored id stands in two places, nor is one drawn: no node of a forest has an id that is authored on another
node of the forest, or that is one of those to come later, and neither is such an id kept already. -/
structure Evaluation.Clear (e : Evaluation) (forest : List (Tree Value)) (later : List Value) : Prop where
  distinct : (Tree.each Branch.authoredId? forest ++ later).Nodup
  drawn : ∀ id ∈ Tree.each Branch.drawnId? forest, id ∉ Tree.each Branch.authoredId? forest ++ later
  kept : ∀ handle id, e.idOf? handle = some id → id ∉ Tree.each Branch.authoredId? forest ++ later

namespace Evaluating

section

variable {node : Node} {literals : List Value} {scope : NodeScope} {n : Handle} {e e₁ : Evaluation} {doc : Document}
  {id : Value} {supply' : IdSupply}

/-- A delivery to a place succeeds. -/
theorem deliver_of_place {collector : Option Collector} {place : Nat} (h : collector = some (.place place))
    (handle : Handle) (item : Item) (inner : Option NodeScope) (doc : Document) :
    deliver collector handle item inner doc = (.ok inner, doc.putItem place handle item) := by
  rw [h]
  rfl

/-- A node that is admitted contributes. -/
theorem contribute_of_admissible (ha : Admissible node literals scope doc) (hw : scope.Within doc)
    (hx : node.kind = .script → ∃ items, (node.get .extensions).items = .ok items) (n : Handle) (id : Value) :
    ∃ out doc', contribute node literals scope n id doc = (.ok out, doc') := by
  have hparams : (∃ c, scope.get .params = some c) → ∃ p, scope.get .params = some (.place p) := by
    rintro ⟨c, hc⟩
    obtain ⟨p, rfl, -⟩ := hw.params c hc
    exact ⟨p, hc⟩
  unfold Admissible at ha
  unfold contribute
  match hk : node.kind with
  | .fragment | .project | .scene | .object | .sprite | .textBox | .variable | .message | .function | .table =>
    exact ⟨_, _, rfl⟩
  | .picture =>
    simp only [hk] at ha
    obtain ⟨index, ho, -⟩ := ha
    rw [ho]
    exact ⟨_, _, rfl⟩
  | .sound =>
    simp only [hk] at ha
    obtain ⟨index, ho⟩ := ha
    rw [ho]
    exact ⟨_, _, rfl⟩
  | .localVariable =>
    simp only [hk] at ha
    obtain ⟨index, hf, -⟩ := ha
    rw [hf]
    exact ⟨_, _, rfl⟩
  | .statement =>
    simp only [hk] at ha
    obtain ⟨c, hc⟩ := ha
    obtain ⟨p, rfl, -⟩ := hw.statements c hc
    exact ⟨_, _, deliver_of_place hc _ _ _ _⟩
  | .script =>
    simp only [hk] at ha
    obtain ⟨p, hp⟩ := hparams ha
    obtain ⟨items, hi⟩ := hx hk
    rw [hi]
    exact ⟨_, _, deliver_of_place hp _ _ _ _⟩
  | .param =>
    simp only [hk] at ha
    obtain ⟨p, hp⟩ := hparams ha.1
    exact ⟨_, _, deliver_of_place hp _ _ _ _⟩
  | .variableParam | .objectParam =>
    simp only [hk] at ha
    obtain ⟨p, hp⟩ := hparams ha.1
    simp only [targetIn, hk]
    exact ⟨_, _, deliver_of_place hp _ _ _ _⟩
  | .pictureParam | .soundParam =>
    simp only [hk] at ha
    obtain ⟨p, hp⟩ := hparams ha.1
    obtain ⟨index, ho⟩ := ha.2
    simp only [targetIn, hk, ho]
    exact ⟨_, _, deliver_of_place hp _ _ _ _⟩
  | .namedParam | .node => simp only [hk] at ha

/-- A node takes the id that is authored on it, or else one that is drawn. -/
theorem mem_ids_of_takeId {b : Branch} {supply : IdSupply} (h : b.node.takeId supply = (.ok b.id, supply')) :
    (b.node.requestedId? = none ∧ b.authoredId? = none ∧ b.drawnId? = none) ∨
      (b.authoredId? = some b.id ∧ b.drawnId? = none) ∨ (b.authoredId? = none ∧ b.drawnId? = some b.id) := by
  unfold Branch.authoredId? Branch.drawnId?
  rw [Node.takeId_apply] at h
  cases hr : b.node.requestedId? with
  | none => exact .inl ⟨rfl, rfl, rfl⟩
  | some authored =>
    rw [hr] at h
    cases ht : authored.truthy with
    | true =>
      simp only [ht, if_true, Prod.mk.injEq, Except.ok.injEq] at h
      refine .inr (.inl ⟨?_, ?_⟩)
      · rw [Option.filter_some, if_pos ht, h.1]
      · simp [ht]
    | false =>
      refine .inr (.inr ⟨?_, ?_⟩)
      · simp [Option.filter_some, ht]
      · simp [ht]

/-- A new handle gets the id that a new node takes from the supply, unless it is authored and taken. -/
theorem request_of_takeId (h : node.takeId e.supply = (.ok id, supply')) (hn : e.idOf? n = none) (ho : e.Owned)
    (hnode : node.AuthorsText)
    (hfree : ∀ authored ∈ node.requestedId?, authored.truthy = true → ∀ handle, e.idOf? handle ≠ some authored) :
    ∃ e', request node n e = (.ok id, e') := by
  rw [Node.takeId_apply] at h
  unfold request
  cases hr : node.requestedId? with
  | none =>
    rw [hr] at h
    cases h
    exact ⟨e, rfl⟩
  | some authored =>
    rw [hr] at h
    simp only at h
    simp only [instanceId_apply, hn]
    by_cases ht : authored.truthy = true
    · have hkey : authored.isKey = true := by
        rcases hnode authored hr with rfl | ⟨s, rfl⟩ <;> rfl
      have howner : e.ownerOf? authored = none := by
        cases hf : e.ownerOf? authored with
        | none => rfl
        | some handle => exact absurd ((ho.inverse handle authored).mp hf) (hfree authored hr ht handle)
      rw [if_pos ht] at h ⊢
      cases h
      simp [hkey, howner]
    · rw [if_neg ht] at h ⊢
      rcases hf : e.supply.pool.next e.supply.source IdPool.defaultLength with ⟨_ | s, pool, source⟩
      · rw [hf] at h
        cases h
      · rw [hf] at h
        cases h
        simp only [freshId, hf]
        exact ⟨_, rfl⟩

/-- A new node that is admitted is visited with success if its id is not taken, and no handle but its own gets an id. -/
theorem visit_of_admissible {mark : Nat} (hm : mark ∉ e.met) (ht : e.Tidy) (ho : e.Owned)
    (hw : scope.Within e.document) (ha : Admissible node literals scope e.document) (hnode : node.Typed)
    (hid : node.takeId e.supply = (.ok id, supply'))
    (hfree : ∀ authored ∈ node.requestedId?, authored.truthy = true → ∀ handle, e.idOf? handle ≠ some authored) :
    ∃ out e₁, visit mark node literals scope e = (.ok out, e₁) ∧
      ∀ handle i, e₁.idOf? handle = some i → e.idOf? handle = some i ∨ node.requestedId?.isSome = true ∧ i = id := by
  have hn : e.idOf? e.met.length = none := ht.idOf?_length
  obtain ⟨e₂, hr⟩ : ∃ e₂, request node e.met.length (e.enter mark node) = (.ok id, e₂) :=
    request_of_takeId hid hn (ho.enter mark node) hnode.authorsText hfree
  have hdoc : e₂.document = e.document := by
    have hd := document_request node e.met.length (e.enter mark node)
    rw [hr] at hd
    exact hd
  have hx : node.kind = .script → ∃ items, (node.get .extensions).items = .ok items := by
    intro hk
    obtain ⟨items, hi⟩ := hnode.extensions hk
    exact ⟨items, by rw [hi]; rfl⟩
  obtain ⟨out, doc', hcon⟩ := contribute_of_admissible ha hw hx e.met.length id
  refine ⟨out, { e₂ with document := doc' }, ?_, ?_⟩
  · have hadm : admission node literals scope (e.enter mark node).document = .ok () := admission_eq_ok_iff.mpr ha
    rw [visit_apply, Evaluation.handleFor_of_new hm, staged_apply, hadm, hr]
    simp only
    rw [hdoc, hcon]
  · intro handle i hi
    have hi : e₂.idOf? handle = some i := hi
    by_cases hh : handle = e.met.length
    · subst hh
      rcases request_eq node e.met.length (e.enter mark node) with ⟨authored, hauthored, heq⟩ | heq
      · rw [heq] at hr
        rw [idOf?_of_instanceId_eq_ok hr, if_pos rfl] at hi
        exact .inr ⟨by rw [hauthored]; rfl, (Option.some_inj.mp hi).symm⟩
      · rw [heq] at hr
        cases hr
        exact absurd (hn.symm.trans hi) nofun
    · rw [idOf?_of_request_eq_ok hr hh] at hi
      exact .inl hi

end

end Evaluating

namespace Evaluation.Clear

variable {e e₁ : Evaluation} {b : Branch} {t : Tree Value} {rest : List (Tree Value)} {later : List Value}

/-- The id that is authored on the next node is not taken. -/
theorem free (h : e.Clear [.node b.id b.node b.children] later) :
    ∀ authored ∈ b.node.requestedId?, authored.truthy = true → ∀ handle, e.idOf? handle ≠ some authored := by
  intro authored ha ht handle hi
  have hb : b.authoredId? = some authored := by
    unfold Branch.authoredId?
    rw [ha, Option.filter_some, if_pos ht]
  refine h.kept handle authored hi ?_
  rw [Tree.each_node, hb]
  simp

/-- After a node has its id, no authored id below it or to come later is taken. -/
theorem below {supply supply' : IdSupply} (h : e.Clear [.node b.id b.node b.children] later)
    (hid : b.node.takeId supply = (.ok b.id, supply'))
    (hids : ∀ handle i, e₁.idOf? handle = some i →
      e.idOf? handle = some i ∨ b.node.requestedId?.isSome = true ∧ i = b.id) : e₁.Clear b.children later := by
  obtain ⟨hdistinct, hdrawn, hkept⟩ := h
  simp only [Tree.each_node, List.append_assoc] at hdistinct hdrawn hkept
  refine ⟨(List.nodup_append.mp hdistinct).2.1, ?_, ?_⟩
  · exact fun id hi hm => hdrawn id (List.mem_append_right _ hi) (List.mem_append_right _ hm)
  · intro handle i hi hm
    rcases hids handle i hi with hi | ⟨hsome, rfl⟩
    · exact hkept handle i hi (List.mem_append_right _ hm)
    · rcases Evaluating.mem_ids_of_takeId hid with ⟨hnone, -, -⟩ | ⟨ha, -⟩ | ⟨-, hd⟩
      · rw [hnone] at hsome
        cases hsome
      · rw [ha] at hdistinct
        exact (List.nodup_cons.mp hdistinct).1 hm
      · exact hdrawn b.id (List.mem_append_left _ (by rw [hd]; simp)) (List.mem_append_right _ hm)

/-- What comes after the first tree comes later. -/
theorem ofHead (h : e.Clear (t :: rest) later) : e.Clear [t] (Tree.each Branch.authoredId? rest ++ later) := by
  obtain ⟨hdistinct, hdrawn, hkept⟩ := h
  rw [Tree.each_cons Branch.authoredId? t rest, List.append_assoc] at hdistinct hdrawn hkept
  rw [Tree.each_cons Branch.drawnId? t rest] at hdrawn
  exact ⟨hdistinct, fun id hi => hdrawn id (List.mem_append_left _ hi), hkept⟩

/-- After the first tree, no authored id of the others is taken. -/
theorem ofRest (h : e.Clear (t :: rest) later)
    (hk : ∀ handle id, e₁.idOf? handle = some id → id ∉ Tree.each Branch.authoredId? rest ++ later) :
    e₁.Clear rest later := by
  obtain ⟨hdistinct, hdrawn, -⟩ := h
  rw [Tree.each_cons Branch.authoredId? t rest, List.append_assoc] at hdistinct hdrawn
  rw [Tree.each_cons Branch.drawnId? t rest] at hdrawn
  refine ⟨(List.nodup_append.mp hdistinct).2.1, ?_, hk⟩
  exact fun id hi hm => hdrawn id (List.mem_append_right _ hi) (List.mem_append_right _ hm)

end Evaluation.Clear

/-- A node of some types stands where it may and holds what it may. -/
structure Branch.Proper (above : List Branch) (b : Branch) : Prop where
  typed : b.Typed
  placed : b.Placed above
  holds : b.Holds

namespace Evaluation

variable {e e₁ e₂ : Evaluation}

/-- An evaluation is about to go on in a scope below some nodes. -/
structure Ready (e : Evaluation) (above : List Branch) (scope : NodeScope) : Prop where
  tidy : e.Tidy
  owned : e.Owned
  within : scope.Within e.document
  surrounds : Surrounds above scope e.document

/-- An evaluation has gone on: it has met some nodes, used up some of the supply, let at most so many more projects fill
the document, and kept clear of the ids to come later. -/
structure GoesOn (e : Evaluation) (marks : List Nat) (supply' : IdSupply) (projects : Nat) (later : List Value)
    (e' : Evaluation) : Prop where
  met : e'.met = e.met ++ marks
  supply : e'.supply = supply'
  tidy : e'.Tidy
  owned : e'.Owned
  document : e.document.Later e'.document
  projects : e'.document.populatedBy.length ≤ e.document.populatedBy.length + projects
  kept : ∀ handle id, e'.idOf? handle = some id → id ∉ later

/-- An evaluation goes on and then goes on. -/
theorem GoesOn.trans {marks marks' : List Nat} {supply supply' : IdSupply} {k k' : Nat} {later later' : List Value}
    (h : e.GoesOn marks supply k later e₁) (h' : e₁.GoesOn marks' supply' k' later' e₂) :
    e.GoesOn (marks ++ marks') supply' (k + k') later' e₂ where
  met := by rw [h'.met, h.met, List.append_assoc]
  supply := h'.supply
  tidy := h'.tidy
  owned := h'.owned
  document := h.document.trans h'.document
  projects := by
    have hp := h.projects
    have hp' := h'.projects
    omega
  kept := h'.kept

/-- The scope of an evaluation that has gone on is still good. -/
theorem Ready.later {above : List Branch} {scope : NodeScope} {marks : List Nat} {supply : IdSupply} {k : Nat}
    {later : List Value} (h : e.Ready above scope) (hg : e.GoesOn marks supply k later e₁) : e₁.Ready above scope :=
  ⟨hg.tidy, hg.owned, h.within.later hg.document, h.surrounds.later hg.document⟩

end Evaluation

/-- A contribution puts at most a project on record, and only if it is one. -/
theorem Effect.length_populatedBy_le {scope : NodeScope} {n : Handle} {doc doc' : Document} {b : Branch}
    {out : Option NodeScope} (h : Effect scope n doc b out doc') :
    doc'.populatedBy.length ≤ doc.populatedBy.length + b.project?.toList.length := by
  cases h with
  | project hk =>
    rw [Branch.project?, if_pos hk]
    unfold Document.populate
    simp only
    split
    · exact Nat.le_add_right _ _
    · simp
  | _ => exact Nat.le_add_right _ _

namespace Tree

/-- Trees that are plain values are plain values also with ids, and use up nothing of the supply. -/
theorem of_allNamed_of_nodesOf {children : List (Tree Nat)} {ts : List (Tree Value)} {supply supply' : IdSupply}
    (h : allNamed children supply = (.ok ts, supply')) (hts : nodesOf ts = []) :
    nodesOf children = [] ∧ supply' = supply := by
  induction children generalizing ts supply with
  | nil =>
    cases h
    exact ⟨rfl, rfl⟩
  | cons t rest ih =>
    rw [allNamed, Attempt.bind_eq_ok_iff] at h
    obtain ⟨t', s₁, ht, h⟩ := h
    obtain ⟨ts', s₂, hrest, h⟩ := Attempt.bind_eq_ok_iff.mp h
    cases h
    rw [nodesOf, List.append_eq_nil_iff] at hts
    cases t with
    | literal v =>
      rw [named] at ht
      cases ht
      exact ih hrest hts.2
    | node mark data children =>
      rw [named, Attempt.bind_eq_ok_iff] at ht
      obtain ⟨id, s₃, -, ht⟩ := ht
      obtain ⟨cs, s₄, -, ht⟩ := Attempt.bind_eq_ok_iff.mp ht
      cases ht
      cases hts.1

end Tree

namespace Evaluating

/-- Nothing happens below a parameter that holds plain values, nor below a node without children. -/
theorem evaluateChildren_of_nodesOf {parent : Node} {children : List (Tree Nat)} (hc : Tree.nodesOf children = [])
    (hl : Tree.literals children ≠ [] → parent.kind = .param) (inner : Option NodeScope) (e : Evaluation) :
    evaluateChildren parent inner children e = (.ok (), e) := by
  induction children with
  | nil =>
    rw [evaluateChildren]
    rfl
  | cons t rest ih =>
    rw [Tree.nodesOf, List.append_eq_nil_iff] at hc
    cases t with
    | literal v =>
      have hk := hl (by rw [Tree.literals]; exact List.cons_ne_nil _ _)
      rw [evaluateChildren_literal, if_pos hk]
      exact ih hc.2 fun _ => hk
    | node mark data children => cases hc.1

mutual

/-- The evaluation of a tree that keeps the rules succeeds. -/
theorem evaluate_of_proper (tree : Tree Nat) {t : Tree Value} {supply' : IdSupply} {scope : NodeScope}
    {e : Evaluation} {above : List Branch} {later : List Value} (hroot : tree.root?.isSome = true)
    (hn : Tree.New e.met tree.nodes) (ht : tree.named e.supply = (.ok t, supply')) (hr : e.Ready above scope)
    (hP : Tree.EverywhereIn Branch.Proper above [t]) (hc : e.Clear [t] later) :
    ∃ e', evaluate tree scope e = (.ok (), e') ∧
      e.GoesOn (tree.nodes.map (·.1)) supply' (Tree.each Branch.project? [t]).length later e' := by
  match tree with
  | .literal _ => cases hroot
  | .node mark node children =>
    rw [Tree.named, Attempt.bind_eq_ok_iff] at ht
    obtain ⟨id, s₁, hid, ht⟩ := ht
    obtain ⟨ts, s₂, hts, ht⟩ := Attempt.bind_eq_ok_iff.mp ht
    cases ht
    let b : Branch := ⟨id, node, ts⟩
    obtain ⟨hb, hcs, -⟩ := (Tree.everywhereIn_node (b := b)).mp hP
    have hlit : Tree.literals ts = Tree.literals children := Tree.literals_of_allNamed hts
    rw [Tree.nodes] at hn
    -- the node itself
    have hadmissible : Admissible node (Tree.literals children) scope e.document :=
      hlit ▸ (admissible_iff hr.surrounds hr.within hb.typed.node).mpr ⟨hb.placed, hb.holds.single⟩
    obtain ⟨out, e₁, hv, hids⟩ := visit_of_admissible hn.not_mem hr.tidy hr.owned hr.within hadmissible hb.typed.node
      hid (Evaluation.Clear.free (b := b) hc)
    obtain ⟨id', hid', hmet, htidy, hadm, hcon, hin⟩ := visit_new hv hn.not_mem hr.tidy hr.within
    obtain ⟨rfl, rfl⟩ : id = id' ∧ s₁ = e₁.supply := by
      rw [hid] at hid'
      cases hid'
      exact ⟨rfl, rfl⟩
    have heffect : Effect scope e.met.length e.document b out e₁.document :=
      .of_contribute (hlit ▸ hadm) (hlit ▸ hcon)
    have howned : e₁.Owned := by
      have ho := owned_visit hr.owned mark hb.typed.node.authorsText (Tree.literals children) scope
      rw [hv] at ho
      exact ho
    have hclear : e₁.Clear ts later := Evaluation.Clear.below (b := b) hc hid hids
    have hgoes : e.GoesOn [mark] e₁.supply b.project?.toList.length [] e₁ :=
      ⟨hmet, rfl, htidy, howned, heffect.later, heffect.length_populatedBy_le, fun _ _ _ => List.not_mem_nil⟩
    have hkind : Tree.literals children ≠ [] → node.kind = .param := by
      intro hl
      by_contra hk
      exact hl (hlit ▸ hb.holds.literals hk)
    -- what is below it
    obtain ⟨e', he', hgoes'⟩ : ∃ e', evaluateChildren node out children e₁ = (.ok (), e') ∧
        e₁.GoesOn ((Tree.nodesOf children).map (·.1)) supply' (Tree.each Branch.project? ts).length later e' := by
      cases out with
      | none =>
        have hnodes : Tree.nodesOf ts = [] := hb.holds.nodes heffect.isSome_out.symm
        obtain ⟨hnil, rfl⟩ := Tree.of_allNamed_of_nodesOf hts hnodes
        refine ⟨e₁, evaluateChildren_of_nodesOf hnil hkind none e₁, ?_⟩
        rw [hnil]
        exact ⟨(List.append_nil _).symm, rfl, htidy, howned, .refl _, Nat.le_add_right _ _,
          fun handle i hi hm => hclear.kept handle i hi (List.mem_append_right _ hm)⟩
      | some inner =>
        exact evaluateChildren_of_proper node children hkind (hmet ▸ hn.tail) hts
          ⟨htidy, howned, hin inner rfl, hr.surrounds.below heffect⟩ hcs hclear
    refine ⟨e', ?_, ?_⟩
    · rw [evaluate_node, Attempt.bind_apply_of_ok hv, he']
    · have htrans := hgoes.trans hgoes'
      rw [Tree.nodes, List.map_cons, Tree.each_node (b := b), List.length_append]
      exact htrans

/-- The evaluation of trees that keep the rules succeeds. -/
theorem evaluateChildren_of_proper (parent : Node) (children : List (Tree Nat)) {ts : List (Tree Value)}
    {supply' : IdSupply} {scope : NodeScope} {e : Evaluation} {above : List Branch} {later : List Value}
    (hl : Tree.literals children ≠ [] → parent.kind = .param) (hn : Tree.New e.met (Tree.nodesOf children))
    (hts : Tree.allNamed children e.supply = (.ok ts, supply')) (hr : e.Ready above scope)
    (hP : Tree.EverywhereIn Branch.Proper above ts) (hc : e.Clear ts later) :
    ∃ e', evaluateChildren parent (some scope) children e = (.ok (), e') ∧
      e.GoesOn ((Tree.nodesOf children).map (·.1)) supply' (Tree.each Branch.project? ts).length later e' := by
  match children with
  | [] =>
    cases hts
    refine ⟨e, by rw [evaluateChildren]; rfl, ?_⟩
    exact ⟨(List.append_nil _).symm, rfl, hr.tidy, hr.owned, .refl _, Nat.le_add_right _ _, hc.kept⟩
  | .literal v :: rest =>
    have hk := hl (by rw [Tree.literals]; exact List.cons_ne_nil _ _)
    rw [Tree.allNamed, Attempt.bind_eq_ok_iff] at hts
    obtain ⟨t, s₁, ht, hts⟩ := hts
    obtain ⟨ts', s₂, hrest, hts⟩ := Attempt.bind_eq_ok_iff.mp hts
    cases hts
    rw [Tree.named] at ht
    cases ht
    rw [evaluateChildren_literal, if_pos hk]
    rw [Tree.everywhereIn_literal] at hP
    have hc' : e.Clear ts' later := ⟨hc.distinct, hc.drawn, hc.kept⟩
    obtain ⟨e', he', hgoes⟩ := evaluateChildren_of_proper parent rest (fun _ => hk) hn hrest hr hP hc'
    exact ⟨e', he', hgoes⟩
  | .node mark node children :: rest =>
    rw [Tree.nodesOf] at hn ⊢
    rw [Tree.allNamed, Attempt.bind_eq_ok_iff] at hts
    obtain ⟨t, s₁, ht, hts⟩ := hts
    obtain ⟨ts', s₂, hrest, hts⟩ := Attempt.bind_eq_ok_iff.mp hts
    cases hts
    rw [Tree.EverywhereIn] at hP
    have hP₁ : Tree.EverywhereIn Branch.Proper above [t] := by
      rw [Tree.EverywhereIn, Tree.EverywhereIn]
      exact ⟨hP.1, trivial⟩
    obtain ⟨e₁, he₁, hgoes₁⟩ := evaluate_of_proper (.node mark node children) rfl hn.append.1 ht hr hP₁ hc.ofHead
    obtain ⟨e', he', hgoes⟩ := evaluateChildren_of_proper parent rest hl (hgoes₁.met ▸ hn.append.2)
      (hgoes₁.supply.symm ▸ hrest) (hr.later hgoes₁) hP.2 (hc.ofRest hgoes₁.kept)
    refine ⟨e', ?_, ?_⟩
    · rw [evaluateChildren_node]
      exact (Attempt.bind_apply_of_ok he₁).trans he'
    · have htrans := hgoes₁.trans hgoes
      rw [List.map_append, Tree.each_cons, List.length_append]
      exact htrans

end

end Evaluating

end SceneTree
