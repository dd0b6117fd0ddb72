import SceneTree.Proofs.Integrity.Steady

/-!
# Furnishing a document

An evaluation that succeeds gives handles and ids to nodes and puts entries into the document. Once every node of a tree
was given what it asks for, no later visit of the tree gives it anything else, so that the document is what the nodes
make of it under the handles and ids that they have in the end: `furnish` is that part of an evaluation alone. The other
way round, an evaluation that remembers all handles and ids succeeds if the document can be furnished, and remembers the
same afterwards.
-/

namespace SceneTree

/-- The handle and the id of the node of every mark. -/
structure Grants where
  handle : Nat → Handle
  id : Nat → Value

namespace Evaluation

/-- The handles and ids that nodes have in an evaluation. -/
def grants (e : Evaluation) : Grants :=
  ⟨e.handleFor, fun mark => (e.idOf? (e.handleFor mark)).getD .null⟩

/-- A node has a handle, and the id that it asks for: any id, or the one that is authored on it. -/
def Granted (e : Evaluation) (mark : Nat) (node : Node) : Prop :=
  ∃ n, e.handle? mark = some n ∧ ∀ authored, node.requestedId? = some authored →
    ∃ id, e.idOf? n = some id ∧ (authored.truthy = true → id = authored)

/-- What nodes have been granted, they have later. -/
structure Settles (data : Nat → Node) (e e' : Evaluation) : Prop where
  handle? : ∀ {mark n}, e.handle? mark = some n → e'.handle? mark = some n
  idOf? : ∀ {mark n}, e.handle? mark = some n → e.Granted mark (data mark) → e'.idOf? n = e.idOf? n

/-- An evaluation has the handles and ids of another one, and the same are in use. -/
structure Recalls (e z : Evaluation) : Prop where
  met : e.met = z.met
  supply : e.supply = z.supply
  owners : e.owners = z.owners
  idOf? : ∀ n, e.idOf? n = z.idOf? n

variable {data : Nat → Node} {e e₁ e' z : Evaluation} {mark : Nat} {node : Node} {n : Handle} {id : Value}

theorem Settles.refl (data : Nat → Node) (e : Evaluation) : e.Settles data e := ⟨fun h => h, fun _ _ => rfl⟩

/-- A node is still granted what it has. -/
theorem Settles.granted (h : e.Settles data e') (hg : e.Granted mark (data mark)) : e'.Granted mark (data mark) := by
  obtain ⟨n, hn, hid⟩ := hg
  refine ⟨n, h.handle? hn, ?_⟩
  rw [h.idOf? hn ⟨n, hn, hid⟩]
  exact hid

theorem Settles.trans (h : e.Settles data e₁) (h' : e₁.Settles data e') : e.Settles data e' :=
  ⟨fun hn => h'.handle? (h.handle? hn),
    fun hn hg => (h'.idOf? (h.handle? hn) (h.granted hg)).trans (h.idOf? hn hg)⟩

/-- The tables agree where they are those of an evaluation in which they agree. -/
theorem Recalls.owned (h : e.Recalls z) (hz : z.Owned) : e.Owned := by
  obtain ⟨hmet, hsupply, howners, hids⟩ := h
  refine ⟨hmet ▸ hz.met, fun hi => hmet ▸ hz.bound (hids _ ▸ hi), howners ▸ hz.keyed, fun n id => ?_,
    fun hi => hsupply ▸ hz.issued (hids _ ▸ hi)⟩
  rw [hids, ownerOf?, howners]
  exact hz.inverse n id

/-- A handle that takes the id that it has takes nothing from the owners. -/
theorem Owned.owners_assign (h : e.Owned) (hi : e.idOf? n = some id) : (e.assign n id).owners = e.owners := by
  obtain ⟨s, rfl⟩ := h.text hi
  have hmem := h.mem_owners_iff.mpr hi
  have hany : (e.owners.any fun p => p.1 == Value.str s) = true :=
    List.any_eq_true.mpr ⟨_, hmem, Value.str_beq_iff.mpr rfl⟩
  have hsame : (if Value.str s == Value.str s then e.owners else e.owners.eraseP fun p => p.1 == Value.str s) =
      e.owners := if_pos (Value.str_beq_iff.mpr rfl)
  unfold Evaluation.assign
  simp only [hi]
  rw [hsame, if_pos hany]
  refine (List.map_congr_left fun p hp => ?_).trans (List.map_id _)
  simp only [id_eq]
  split
  · next hpid =>
    have hid := Value.beq_str_iff.mp hpid
    have hown : e.idOf? p.2 = some (.str s) := hid ▸ h.mem_owners_iff.mp hp
    exact Prod.ext rfl (h.idOf?_injective hi hown)
  · rfl

end Evaluation

namespace Evaluating

/-- A node that has its handle and its id is admitted to a document and contributes to it. -/
def furnishNode (grants : Grants) (mark : Nat) (node : Node) (literals : List Value) (scope : NodeScope) :
    Attempt Document (Option NodeScope) := do
  let doc ← Attempt.state
  Attempt.ofExcept (admission node literals scope doc)
  contribute node literals scope (grants.handle mark) (grants.id mark)

mutual

/-- Furnishes a document with a tree whose nodes have their handles and ids. -/
def furnish (grants : Grants) (tree : Tree Nat) (scope : NodeScope) : Attempt Document Unit :=
  match tree with
  | .literal _ => Attempt.fail (.requires "Literal value" "Param")
  | .node mark node children => do
    let inner ← furnishNode grants mark node (Tree.literals children) scope
    furnishAll grants node inner children

/-- Furnishes a document with the children of a node. -/
def furnishAll (grants : Grants) (parent : Node) (inner : Option NodeScope) (children : List (Tree Nat)) :
    Attempt Document Unit :=
  match children with
  | [] => pure ()
  | child :: rest => do
    match child.root?, inner with
    | none, _ => if parent.kind = .param then pure () else Attempt.fail (.requires "Literal value" "Param")
    | some node, none => Attempt.fail (.cannotContain parent.called node.called)
    | some _, some scope => furnish grants child scope
    furnishAll grants parent inner rest

end

section

variable (grants : Grants)

/-- A literal child is passed over inside a parameter and refused everywhere else. -/
theorem furnishAll_literal (parent : Node) (inner : Option NodeScope) (v : Value) (rest : List (Tree Nat)) :
    furnishAll grants parent inner (.literal v :: rest) =
      if parent.kind = .param then furnishAll grants parent inner rest
      else Attempt.fail (.requires "Literal value" "Param") := by
  simp only [furnishAll, Tree.root?]
  split <;> rfl

/-- A child that is a node goes into the document in the scope that its parent left. -/
theorem furnishAll_node (parent : Node) (inner : Option NodeScope) (mark : Nat) (node : Node)
    (children rest : List (Tree Nat)) :
    furnishAll grants parent inner (.node mark node children :: rest) =
      match inner with
      | some scope => (do
          furnish grants (.node mark node children) scope
          furnishAll grants parent inner rest)
      | none => Attempt.fail (.cannotContain parent.called node.called) := by
  cases inner with
  | none =>
    simp only [furnishAll, Tree.root?]
    rfl
  | some scope => simp only [furnishAll, Tree.root?]

end

variable {data : Nat → Node} {mark : Nat} {node : Node} {literals : List Value} {scope : NodeScope}
  {e e₁ e' f z : Evaluation} {out : Option NodeScope} {doc doc' : Document} {n : Handle} {id : Value}
  {forest : List (Tree Nat)}

/-- A node goes into the document if it is admitted and what it contributes succeeds. -/
theorem furnishNode_eq_ok_iff {grants : Grants} :
    furnishNode grants mark node literals scope doc = (.ok out, doc') ↔
      admission node literals scope doc = .ok () ∧
        contribute node literals scope (grants.handle mark) (grants.id mark) doc = (.ok out, doc') := by
  simp only [furnishNode, Attempt.bind_apply, Attempt.state_apply, Attempt.ofExcept_apply]
  cases admission node literals scope doc with
  | error fault => simp
  | ok _ => simp

/-- A visit succeeds if the node is admitted, gets an id, and contributes with success. -/
theorem visit_eq_ok_iff :
    visit mark node literals scope e = (.ok out, e₁) ↔
      admission node literals scope e.document = .ok () ∧
        ∃ id e₀, request node (e.handleFor mark) (e.enter mark node) = (.ok id, e₀) ∧
          contribute node literals scope (e.handleFor mark) id e.document = (.ok out, e₁.document) ∧
          e₁ = { e₀ with document := e₁.document } := by
  have hdocument := document_request node (e.handleFor mark) (e.enter mark node)
  have henter : (e.enter mark node).document = e.document := rfl
  rw [visit_apply, staged_apply, henter]
  cases admission node literals scope e.document with
  | error fault => simp
  | ok _ =>
    rcases hr : request node (e.handleFor mark) (e.enter mark node) with ⟨_ | id, e₀⟩
    · simp
    · have hdoc : e₀.document = e.document := by
        rw [hr] at hdocument
        exact hdocument
      simp only [true_and, Prod.mk.injEq, Except.ok.injEq]
      rw [hdoc]
      constructor
      · rintro ⟨hout, rfl⟩
        exact ⟨id, e₀, ⟨rfl, rfl⟩, Prod.ext hout rfl, rfl⟩
      · rintro ⟨_, _, ⟨rfl, rfl⟩, hc, he⟩
        rw [hc]
        exact ⟨rfl, he.symm⟩

/-- Where no id is asked for, the contribution does not depend on one. -/
theorem contribute_of_requestedId?_none (h : node.requestedId? = none) (literals : List Value) (scope : NodeScope)
    (n : Handle) (id id' : Value) : contribute node literals scope n id = contribute node literals scope n id' := by
  unfold Node.requestedId? at h
  unfold contribute
  cases hk : node.kind <;> rw [hk] at h <;> first | rfl | cases h

/-- A visit that succeeds meets its node alone. -/
theorem met_of_visit_eq_ok (hv : visit mark node literals scope e = (.ok out, e₁)) :
    e₁.met = (e.enter mark node).met := by
  obtain ⟨-, id, e₀, hr, -, he⟩ := visit_eq_ok_iff.mp hv
  have hmet := met_request node (e.handleFor mark) (e.enter mark node)
  rw [hr] at hmet
  rw [he]
  exact hmet

/-- A visit that succeeds settles its node and unsettles no other one. -/
theorem settles_visit (ho : e.Owned) (hd : node = data mark)
    (hv : visit mark node literals scope e = (.ok out, e₁)) :
    e.Settles data e₁ ∧ e₁.Granted mark node ∧ e₁.handle? mark = some (e.handleFor mark) := by
  obtain ⟨-, id, e₀, hr, -, he⟩ := visit_eq_ok_iff.mp hv
  have henter := Evaluation.handle?_enter ho mark node
  have hmet := met_of_visit_eq_ok hv
  have hhandle : ∀ m, e₁.handle? m = (e.enter mark node).handle? m := by
    intro m
    unfold Evaluation.handle?
    rw [hmet]
  have hids : ∀ n, e₁.idOf? n = e₀.idOf? n := fun n => by rw [he]; rfl
  have hself := (hhandle mark).trans henter
  have hgranted : e₁.Granted mark node := by
    refine ⟨_, hself, fun authored hreq => ⟨id, ?_⟩⟩
    rw [request, hreq] at hr
    rw [hids, idOf?_of_instanceId_eq_ok hr, if_pos rfl]
    exact ⟨rfl, eq_of_instanceId_eq_ok hr⟩
  refine ⟨⟨fun {m k} hm => ?_, fun {m k} hm hg => ?_⟩, hgranted, hself⟩
  · rw [hhandle]
    exact Evaluation.handle?_mono (ho.enter mark node).met (Evaluation.met_enter e mark node) hm
  · rw [hids]
    by_cases hk : k = e.handleFor mark
    · -- the node itself: it asks for the id that it has been granted before
      obtain rfl := Evaluation.eq_of_handleFor_eq ho.met hk.symm hm
      obtain ⟨k', hm', hg⟩ := hg
      obtain rfl := Option.some_inj.mp (hm'.symm.trans hm)
      rcases request_eq node (e.handleFor mark) (e.enter mark node) with ⟨authored, hreq, heq⟩ | heq
      · obtain ⟨id', hi, ht⟩ := hg authored (hd ▸ hreq)
        rw [heq, ← hk] at hr
        rw [idOf?_of_instanceId_eq_ok hr, if_pos rfl, hi]
        cases htruthy : authored.truthy with
        | true => rw [eq_of_instanceId_eq_ok hr htruthy, ht htruthy]
        | false =>
          have hkept : (e.enter mark node).idOf? k' = some id' := hi
          rw [instanceId_of_kept htruthy hkept] at hr
          cases hr
          rfl
      · rw [heq] at hr
        cases hr
        rfl
    · exact idOf?_of_request_eq_ok hr hk

/-- What a visit puts into the document is what the node puts there under the handle and the id that it has later. -/
theorem furnishNode_of_visit (ho : e.Owned) (hd : node = data mark)
    (hv : visit mark node literals scope e = (.ok out, e₁)) (hz : e₁.Settles data z) :
    furnishNode z.grants mark node literals scope e.document = (.ok out, e₁.document) := by
  obtain ⟨-, hgranted, hhandle⟩ := settles_visit ho hd hv
  obtain ⟨hadmission, id, e₀, hr, hcontribute, he⟩ := visit_eq_ok_iff.mp hv
  have hfor : z.handleFor mark = e.handleFor mark := by
    rw [Evaluation.handleFor, hz.handle? hhandle, Option.getD_some]
  refine furnishNode_eq_ok_iff.mpr ⟨hadmission, ?_⟩
  change contribute node literals scope (z.handleFor mark) ((z.idOf? (z.handleFor mark)).getD .null) e.document = _
  rw [hfor]
  cases hreq : node.requestedId? with
  | none => rw [contribute_of_requestedId?_none hreq literals scope _ _ id, hcontribute]
  | some authored =>
    have hid : z.idOf? (e.handleFor mark) = some id := by
      rw [hz.idOf? hhandle (hd ▸ hgranted), he]
      rw [request, hreq] at hr
      exact (idOf?_of_instanceId_eq_ok hr _).trans (if_pos rfl)
    rw [hid, Option.getD_some, hcontribute]

/-- A node that has been granted what it asks for is given the same again, and nothing else changes. -/
theorem request_of_recalls (hz : z.Owned) (hf : f.Recalls z)
    (hids : ∀ authored, node.requestedId? = some authored →
      ∃ id, z.idOf? n = some id ∧ (authored.truthy = true → id = authored)) :
    ∃ id f₁, request node n f = (.ok id, f₁) ∧ f₁.Recalls z ∧
      (node.requestedId? = none ∨ z.idOf? n = some id) := by
  unfold request
  cases hreq : node.requestedId? with
  | none => exact ⟨.null, f, rfl, hf, .inl rfl⟩
  | some authored =>
    obtain ⟨id, hi, ht⟩ := hids authored hreq
    have howned := hf.owned hz
    have hkept : f.idOf? n = some id := (hf.idOf? n).trans hi
    simp only
    cases htruthy : authored.truthy with
    | false => exact ⟨id, f, instanceId_of_kept htruthy hkept, hf, .inr hi⟩
    | true =>
      obtain rfl := ht htruthy
      obtain ⟨s, rfl⟩ := howned.text hkept
      have howner : f.ownerOf? (.str s) = some n := (howned.inverse _ _).mpr hkept
      have hreserve : f.supply.pool.reserve (.str s) = f.supply.pool := if_pos (howned.issued hkept)
      have hkey : (Value.str s).isKey = true := rfl
      have hany : (Option.any (fun h => h != n) (some n)) = false := by simp
      rw [instanceId_apply, if_pos htruthy, howner, hkey, hany, hreserve]
      refine ⟨.str s, _, rfl, ⟨hf.met, hf.supply, (howned.owners_assign hkept).trans hf.owners, fun k => ?_⟩, .inr hi⟩
      refine (Evaluation.idOf?_assign _ n _ k).trans ?_
      split
      · next hk => rw [hk, hi]
      · exact hf.idOf? k

/-- An evaluation that remembers what a node was granted gives it the same again, and remembers no more than before. -/
theorem visit_of_furnishNode (hz : z.Owned) (hf : f.Recalls z) (hg : z.Granted mark node)
    (hp : furnishNode z.grants mark node literals scope f.document = (.ok out, doc)) :
    ∃ f₁, visit mark node literals scope f = (.ok out, f₁) ∧ f₁.Recalls z ∧ f₁.document = doc := by
  obtain ⟨hadmission, hcontribute⟩ := furnishNode_eq_ok_iff.mp hp
  obtain ⟨n, hn, hids⟩ := hg
  have hhandle : f.handle? mark = some n := by
    rw [Evaluation.handle?, hf.met]
    exact hn
  have hfor : f.handleFor mark = n := by rw [Evaluation.handleFor, hhandle, Option.getD_some]
  have hforz : z.handleFor mark = n := by rw [Evaluation.handleFor, hn, Option.getD_some]
  have henter : (f.enter mark node).Recalls z :=
    ⟨(Evaluation.met_enter_of_handle? hhandle).trans hf.met, hf.supply, hf.owners, hf.idOf?⟩
  have hgrants : contribute node literals scope n ((z.idOf? n).getD .null) f.document = (.ok out, doc) := by
    rw [← hforz]
    exact hcontribute
  obtain ⟨id, f₀, hr, hf₀, hid⟩ := request_of_recalls hz henter hids
  have hc : contribute node literals scope n id f.document = (.ok out, doc) := by
    rcases hid with hnone | hi
    · rw [contribute_of_requestedId?_none hnone literals scope n id, hgrants]
    · rw [hi] at hgrants
      exact hgrants
  refine ⟨{ f₀ with document := doc }, ?_, ⟨hf₀.met, hf₀.supply, hf₀.owners, hf₀.idOf?⟩, rfl⟩
  rw [visit_eq_ok_iff, hfor]
  exact ⟨hadmission, id, f₀, hr, hc, rfl⟩

/-- An evaluation that succeeds settles its nodes and unsettles no others. -/
theorem Evaluates.settles (h : Evaluates scope forest e e')
    (hP : ∀ n ∈ Tree.nodesOf forest, n.2 = data n.1 ∧ n.2.AuthorsText) (ho : e.Owned) :
    e.Settles data e' ∧ e'.Owned ∧ ∀ n ∈ Tree.nodesOf forest, e'.Granted n.1 n.2 := by
  induction h with
  | nil => exact ⟨.refl _ _, ho, List.forall_mem_nil _⟩
  | literal v _ ih => exact ih hP ho
  | @leaf scope mark node children rest e e₁ e' hv hc _ ih =>
    rw [Tree.nodesOf, Tree.nodes, hc, List.singleton_append, List.forall_mem_cons] at hP ⊢
    obtain ⟨⟨hd, ha⟩, hrest⟩ := hP
    obtain ⟨hs, hg, -⟩ := settles_visit ho hd hv
    have ho₁ := owned_visit ho mark ha (Tree.literals children) scope
    rw [hv] at ho₁
    obtain ⟨hs', ho', hg'⟩ := ih hrest ho₁
    exact ⟨hs.trans hs', ho', hd ▸ hs'.granted (hd ▸ hg), hg'⟩
  | @branch scope inner mark node children rest e e₁ e₂ e' hv _ _ ihc ihr =>
    rw [Tree.nodesOf, Tree.nodes, List.cons_append, List.forall_mem_cons, List.forall_mem_append] at hP ⊢
    obtain ⟨⟨hd, ha⟩, hchildren, hrest⟩ := hP
    obtain ⟨hs, hg, -⟩ := settles_visit ho hd hv
    have ho₁ := owned_visit ho mark ha (Tree.literals children) scope
    rw [hv] at ho₁
    obtain ⟨hs₂, ho₂, hg₂⟩ := ihc hchildren ho₁
    obtain ⟨hs', ho', hg'⟩ := ihr hrest ho₂
    refine ⟨hs.trans (hs₂.trans hs'), ho', hd ▸ (hs₂.trans hs').granted (hd ▸ hg), fun n hn => ?_, hg'⟩
    have hnode := (hchildren n hn).1
    rw [hnode]
    exact hs'.granted (hnode ▸ hg₂ n hn)

mutual

/-- The document that an evaluation leaves is furnished with the handles and ids that the nodes have then or later. -/
theorem furnish_of_evaluate (tree : Tree Nat) {scope : NodeScope} {e e' : Evaluation}
    (hP : ∀ n ∈ tree.nodes, n.2 = data n.1 ∧ n.2.AuthorsText) (ho : e.Owned)
    (h : evaluate tree scope e = (.ok (), e')) (hz : e'.Settles data z) :
    furnish z.grants tree scope e.document = (.ok (), e'.document) := by
  match tree with
  | .literal _ =>
    rw [evaluate] at h
    cases h
  | .node mark node children =>
    rw [Tree.nodes, List.forall_mem_cons] at hP
    obtain ⟨⟨hd, ha⟩, hchildren⟩ := hP
    rw [evaluate_node] at h
    obtain ⟨out, e₁, hv, h⟩ := Attempt.bind_eq_ok_iff.mp h
    have ho₁ := owned_visit ho mark ha (Tree.literals children) scope
    rw [hv] at ho₁
    obtain ⟨hs, hall⟩ := furnishAll_of_evaluateChildren children hchildren ho₁ h hz
    rw [furnish]
    exact Attempt.bind_eq_ok_iff.mpr ⟨out, _, furnishNode_of_visit ho hd hv (hs.trans hz), hall⟩

/-- The same of the children of a node, which settle what has been granted before. -/
theorem furnishAll_of_evaluateChildren (children : List (Tree Nat)) {parent : Node} {inner : Option NodeScope}
    {e e' : Evaluation} (hP : ∀ n ∈ Tree.nodesOf children, n.2 = data n.1 ∧ n.2.AuthorsText) (ho : e.Owned)
    (h : evaluateChildren parent inner children e = (.ok (), e')) (hz : e'.Settles data z) :
    e.Settles data e' ∧ furnishAll z.grants parent inner children e.document = (.ok (), e'.document) := by
  match children with
  | [] =>
    rw [evaluateChildren] at h
    cases h
    exact ⟨.refl _ _, by rw [furnishAll]; rfl⟩
  | .literal v :: rest =>
    rw [evaluateChildren_literal] at h
    rw [furnishAll_literal]
    split at h
    · next hk =>
      rw [if_pos hk]
      exact furnishAll_of_evaluateChildren rest hP ho h hz
    · cases h
  | .node mark node children :: rest =>
    rw [Tree.nodesOf, List.forall_mem_append] at hP
    rw [evaluateChildren_node] at h
    rw [furnishAll_node]
    cases inner with
    | none => cases h
    | some scope =>
      obtain ⟨_, e₁, hf, hr⟩ := Attempt.bind_eq_ok_iff.mp h
      have hfirst : ∀ n ∈ Tree.nodesOf [Tree.node mark node children], n.2 = data n.1 ∧ n.2.AuthorsText := by
        rw [Tree.nodesOf, Tree.nodesOf, List.append_nil]
        exact hP.1
      obtain ⟨hs₁, ho₁, -⟩ := (evaluates_of_evaluate (.node mark node children) hf).settles hfirst ho
      obtain ⟨hs, hall⟩ := furnishAll_of_evaluateChildren rest hP.2 ho₁ hr hz
      refine ⟨hs₁.trans hs, Attempt.bind_eq_ok_iff.mpr ⟨(), _, ?_, hall⟩⟩
      exact furnish_of_evaluate (.node mark node children) hP.1 ho hf (hs.trans hz)

end

mutual

/-- An evaluation that remembers what the nodes of a tree were granted succeeds if the document can be furnished with
them, and remembers no more than before. -/
theorem evaluate_of_furnish (tree : Tree Nat) {scope : NodeScope} {f : Evaluation} {doc : Document} (hz : z.Owned)
    (hg : ∀ n ∈ tree.nodes, z.Granted n.1 n.2) (hf : f.Recalls z)
    (h : furnish z.grants tree scope f.document = (.ok (), doc)) :
    ∃ f', evaluate tree scope f = (.ok (), f') ∧ f'.Recalls z ∧ f'.document = doc := by
  match tree with
  | .literal _ =>
    rw [furnish] at h
    cases h
  | .node mark node children =>
    rw [Tree.nodes, List.forall_mem_cons] at hg
    rw [furnish] at h
    rw [evaluate_node]
    obtain ⟨out, doc₁, hp, h⟩ := Attempt.bind_eq_ok_iff.mp h
    obtain ⟨f₁, hv, hf₁, rfl⟩ := visit_of_furnishNode hz hf hg.1 hp
    obtain ⟨f', hc, hf'⟩ := evaluateChildren_of_furnishAll children hz hg.2 hf₁ h
    exact ⟨f', Attempt.bind_eq_ok_iff.mpr ⟨out, f₁, hv, hc⟩, hf'⟩

/-- The same of the children of a node. -/
theorem evaluateChildren_of_furnishAll (children : List (Tree Nat)) {parent : Node} {inner : Option NodeScope}
    {f : Evaluation} {doc : Document} (hz : z.Owned) (hg : ∀ n ∈ Tree.nodesOf children, z.Granted n.1 n.2)
    (hf : f.Recalls z) (h : furnishAll z.grants parent inner children f.document = (.ok (), doc)) :
    ∃ f', evaluateChildren parent inner children f = (.ok (), f') ∧ f'.Recalls z ∧ f'.document = doc := by
  match children with
  | [] =>
    rw [furnishAll] at h
    cases h
    exact ⟨f, rfl, hf, rfl⟩
  | .literal v :: rest =>
    rw [furnishAll_literal] at h
    rw [evaluateChildren_literal]
    split at h
    · next hk =>
      rw [if_pos hk]
      exact evaluateChildren_of_furnishAll rest hz hg hf h
    · cases h
  | .node mark node children :: rest =>
    rw [Tree.nodesOf, List.forall_mem_append] at hg
    rw [furnishAll_node] at h
    rw [evaluateChildren_node]
    cases inner with
    | none => cases h
    | some scope =>
      obtain ⟨_, doc₁, hfirst, h⟩ := Attempt.bind_eq_ok_iff.mp h
      obtain ⟨f₁, he, hf₁, rfl⟩ := evaluate_of_furnish (.node mark node children) hz hg.1 hf hfirst
      obtain ⟨f', hrest, hf'⟩ := evaluateChildren_of_furnishAll rest hz hg.2 hf₁ h
      exact ⟨f', Attempt.bind_eq_ok_iff.mpr ⟨(), f₁, he, hrest⟩, hf'⟩

end

end Evaluating

end SceneTree
