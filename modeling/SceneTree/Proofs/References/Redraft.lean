import SceneTree.Proofs.References.Settled
import SceneTree.Proofs.Translation.Successes

/-!
# Evaluations and drafts

Neither what has been collected into the places of a document nor its references, its drafts, are looked at while a
tree is evaluated. So a tree is evaluated if it is once its named parameters have given way to plain ones, as long as
they stand where named ones may: both evaluations take the same steps and differ in their drafts alone.
-/

namespace SceneTree

/-- A document with other parts of scripts and other references. -/
def Document.redrafted (doc : Document) (parts : Cells (Roster Handle Item)) (references : Cells (Target × Reference)) :
    Document :=
  { doc with parts := parts, references := references }

/-- A document is another one but for what is in its places and for its references. -/
def Document.Redraft (doc doc' : Document) : Prop :=
  ∃ parts references, parts.size = doc.parts.size ∧ doc' = doc.redrafted parts references

/-- An evaluation with another document and other reports. -/
def Evaluation.withDocument (e : Evaluation) (doc : Document) (notices : List Notice) : Evaluation :=
  { e with document := doc, notices := notices }

/-- An evaluation is another one but for the reports, what is in the places of the document, and its references. -/
def Evaluation.Redraft (e e' : Evaluation) : Prop :=
  ∃ doc notices, e.document.Redraft doc ∧ e' = e.withDocument doc notices

namespace Document.Redraft

variable {doc doc' : Document}

theorem refl (doc : Document) : doc.Redraft doc := ⟨doc.parts, doc.references, rfl, rfl⟩

theorem addPlace (h : doc.Redraft doc') : doc.addPlace.Redraft doc'.addPlace := by
  obtain ⟨parts, references, hp, rfl⟩ := h
  refine ⟨parts.add .empty, references, ?_, rfl⟩
  simp only [Document.addPlace, Cells.size_add, hp]

/-- What goes into a place does not matter. -/
theorem putItem (h : doc.Redraft doc') (place : Nat) (n : Handle) (item item' : Item) :
    (doc.putItem place n item).Redraft (doc'.putItem place n item') := by
  obtain ⟨parts, references, hp, rfl⟩ := h
  refine ⟨parts.modify place (·.insert n item'), references, ?_, rfl⟩
  simp only [Document.putItem, Cells.size_modify, hp]

/-- A reference more in one of the two does not matter. -/
theorem addReference (h : doc.Redraft doc') (target : Target) (reference : Reference) :
    doc.Redraft (doc'.addReference target reference) := by
  obtain ⟨parts, references, hp, rfl⟩ := h
  exact ⟨parts, references.add (target, reference), hp, rfl⟩

/-- Nor does a reference more in both. -/
theorem addReferences (h : doc.Redraft doc') (target : Target) (reference : Reference) :
    (doc.addReference target reference).Redraft (doc'.addReference target reference) := by
  obtain ⟨parts, references, hp, rfl⟩ := h
  exact ⟨parts, references.add (target, reference), hp, rfl⟩

end Document.Redraft

namespace Evaluating

variable {node : Node} {literals : List Value} {scope : NodeScope} {n : Handle} {id : Value} {doc doc' : Document}
  {e e' f : Evaluation} {mark : Nat}

/-- A node is admitted to a document or not, whatever its drafts are. -/
theorem admission_redraft (h : doc.Redraft doc') (node : Node) (literals : List Value) (scope : NodeScope) :
    admission node literals scope doc' = admission node literals scope doc := by
  obtain ⟨parts, references, -, rfl⟩ := h
  rfl

/-- A delivery comes to the same whatever the drafts are and whatever is delivered. -/
theorem deliver_redraft (h : doc.Redraft doc') (collector : Option Collector) (n : Handle) (item item' : Item)
    (inner : Option NodeScope) :
    (deliver collector n item' inner doc').1 = (deliver collector n item inner doc).1 ∧
      (deliver collector n item inner doc).2.Redraft (deliver collector n item' inner doc').2 := by
  match collector with
  | none | some .foreign => exact ⟨rfl, h⟩
  | some (.place place) => exact ⟨rfl, h.putItem place n item item'⟩

/-- A contribution comes to the same whatever the drafts are. -/
theorem contribute_redraft (h : doc.Redraft doc') (node : Node) (literals : List Value) (scope : NodeScope) (n : Handle)
    (id : Value) :
    (contribute node literals scope n id doc').1 = (contribute node literals scope n id doc).1 ∧
      (contribute node literals scope n id doc).2.Redraft (contribute node literals scope n id doc').2 := by
  have hsize : doc'.parts.size = doc.parts.size := by
    obtain ⟨parts, references, hp, rfl⟩ := h
    exact hp
  unfold contribute
  match node.kind with
  | .fragment => exact ⟨rfl, h⟩
  | .project | .scene | .variable | .message | .table =>
    obtain ⟨parts, references, hp, rfl⟩ := h
    exact ⟨rfl, parts, references, hp, rfl⟩
  | .object | .sprite | .textBox | .function =>
    simp only [hsize]
    obtain ⟨parts, references, hp, heq⟩ := h.addPlace
    obtain ⟨parts', references', hp', rfl⟩ := h
    refine ⟨rfl, parts, references, hp, ?_⟩
    rw [heq]
    rfl
  | .picture | .sound =>
    obtain ⟨parts, references, hp, rfl⟩ := h
    simp only
    split
    · exact ⟨rfl, parts, references, hp, rfl⟩
    · exact ⟨rfl, parts, references, hp, rfl⟩
  | .localVariable =>
    obtain ⟨parts, references, hp, rfl⟩ := h
    simp only
    split
    · exact ⟨rfl, parts, references, hp, rfl⟩
    · exact ⟨rfl, parts, references, hp, rfl⟩
  | .statement =>
    simp only [hsize]
    exact deliver_redraft h.addPlace _ n _ _ _
  | .script =>
    simp only [hsize]
    split
    · exact deliver_redraft h.addPlace.addPlace _ n _ _ _
    · exact ⟨rfl, h⟩
  | .param => exact deliver_redraft h _ n _ _ _
  | .node | .namedParam | .variableParam | .objectParam | .pictureParam | .soundParam =>
    simp only
    split
    · exact deliver_redraft (h.addReferences _ _) _ n _ _ _
    · exact ⟨rfl, h⟩

/-- An instance id comes to the same whatever the document is. -/
theorem request_withDocument (node : Node) (n : Handle) (e : Evaluation) (doc : Document) (notices : List Notice) :
    request node n (e.withDocument doc notices) =
      ((request node n e).1, (request node n e).2.withDocument doc notices) := by
  unfold request
  cases node.requestedId? with
  | none => rfl
  | some authored =>
    simp only [instanceId_apply]
    have hid : (e.withDocument doc notices).idOf? n = e.idOf? n := rfl
    have howner : (e.withDocument doc notices).ownerOf? authored = e.ownerOf? authored := rfl
    rw [hid, howner]
    split
    · split
      · rfl
      · split <;> rfl
    · cases e.idOf? n with
      | some id => rfl
      | none =>
        simp only [freshId, Evaluation.withDocument]
        rcases e.supply.pool.next e.supply.source IdPool.defaultLength with ⟨_ | s, pool, source⟩ <;> rfl

/-- The stages of a contribution come to the same whatever the drafts are. -/
theorem staged_redraft (h : e.Redraft f) (node : Node) (literals : List Value) (scope : NodeScope) (n : Handle) :
    (staged node literals scope n f).1 = (staged node literals scope n e).1 ∧
      (staged node literals scope n e).2.Redraft (staged node literals scope n f).2 := by
  obtain ⟨doc, notices, hd, rfl⟩ := h
  have hadmission : admission node literals scope (e.withDocument doc notices).document =
      admission node literals scope e.document := admission_redraft hd node literals scope
  rw [staged_apply, staged_apply, hadmission, request_withDocument]
  cases admission node literals scope e.document with
  | error _ => exact ⟨rfl, doc, notices, hd, rfl⟩
  | ok _ =>
    have hdoc := document_request node n e
    rcases hr : request node n e with ⟨_ | id, e₁⟩
    all_goals
      rw [hr] at hdoc
      rw [← hdoc] at hd
    · exact ⟨rfl, doc, notices, hd, rfl⟩
    · obtain ⟨hout, hd'⟩ := contribute_redraft hd node literals scope n id
      exact ⟨hout, _, notices, hd', rfl⟩

/-- A node is reached in the same way whatever the drafts are, and whatever else is said of it. -/
theorem enter_redraft (h : e.Redraft f) (mark : Nat) (node node' : Node) :
    f.handleFor mark = e.handleFor mark ∧ (e.enter mark node).Redraft (f.enter mark node') := by
  obtain ⟨doc, notices, hd, rfl⟩ := h
  exact ⟨rfl, doc, _, hd, rfl⟩

/-- A visit comes to the same whatever the drafts are. -/
theorem visit_redraft (h : e.Redraft f) (mark : Nat) (node : Node) (literals : List Value) (scope : NodeScope) :
    (visit mark node literals scope f).1 = (visit mark node literals scope e).1 ∧
      (visit mark node literals scope e).2.Redraft (visit mark node literals scope f).2 := by
  obtain ⟨hhandle, henter⟩ := enter_redraft h mark node node
  rw [visit_apply, visit_apply, hhandle]
  exact staged_redraft henter node literals scope _

/-- A visit that succeeds succeeds whatever the drafts are. -/
theorem visit_of_redraft {out : Option NodeScope} {e₁ : Evaluation} (h : e.Redraft f)
    (hv : visit mark node literals scope e = (.ok out, e₁)) :
    ∃ f₁, visit mark node literals scope f = (.ok out, f₁) ∧ e₁.Redraft f₁ := by
  obtain ⟨hout, hr⟩ := visit_redraft h mark node literals scope
  rw [hv] at hout hr
  exact ⟨(visit mark node literals scope f).2, Prod.ext hout rfl, hr⟩

end Evaluating

section

open Branch

/-- A scope below some nodes names what is there, and an object if one stands above. -/
structure NodeScope.Below (scope : NodeScope) (above : List Branch) (doc : Document) : Prop where
  within : scope.Within doc
  object : (∃ a ∈ above, a.kind.isObject = true) → ∃ i, scope.get .object = some i

variable {scope below : NodeScope} {n : Handle} {doc doc' : Document} {b : Branch} {above : List Branch}

/-- A scope is still good in a later document. -/
theorem NodeScope.Below.later (h : scope.Below above doc) (hl : doc.Later doc') : scope.Below above doc' :=
  ⟨h.within.later hl, h.object⟩

/-- The scope that a node leaves to its children is good below it, whatever its id is. -/
theorem NodeScope.Below.inner {b' : Branch} (h : scope.Below above doc) (he : Effect scope n doc b' (some below) doc')
    (hk : b'.kind = b.kind) : below.Below (b :: above) doc' where
  within := he.within h.within
  object := by
    intro ho
    rw [he.get_object, hk]
    split
    · exact ⟨_, rfl⟩
    · next hk =>
      rw [exists_mem_cons] at ho
      exact h.object (ho.resolve_left hk)

open Evaluating

/-- A named parameter that stands where it may is admitted wherever there is a place for parameters, and there is
something for its name to be looked up in. -/
theorem NodeScope.Below.admits (h : scope.Below above doc) (hk : b.kind.isNamedParam = true) (hp : b.Placed above)
    {collector : Collector} (hc : scope.get .params = some collector) (literals : List Value) :
    Admissible b.node literals scope doc ∧ ∃ target, targetIn b.node scope = some target := by
  have hproject := h.within.project_of_some (by decide : Place.params ≠ .root) hc
  unfold Branch.Placed Branch.kind at *
  unfold Admissible targetIn
  generalize b.node.kind = kind at hk hp ⊢
  match kind with
  | .variableParam | .objectParam => exact ⟨⟨⟨collector, hc⟩, hproject⟩, _, rfl⟩
  | .pictureParam | .soundParam =>
    obtain ⟨i, hi⟩ := h.object hp.2
    rw [hi]
    exact ⟨⟨⟨collector, hc⟩, i, rfl⟩, _, rfl⟩
  | .namedParam => exact hp.elim

/-- Parameters ask for no id. -/
theorem Evaluating.request_of_isParam {node : Node} (hk : node.kind.isParam = true) (n : Handle) (e : Evaluation) :
    request node n e = (.ok .null, e) := by
  unfold request
  rw [Node.requestedId?_of_isParam hk]
  rfl

/-- What a plain parameter contributes. -/
theorem Evaluating.contribute_param {node : Node} {place : Nat} (hk : node.kind = .param)
    (hc : scope.get .params = some (.place place)) (literals : List Value) (n : Handle) (id : Value) (doc : Document) :
    contribute node literals scope n id doc = (.ok none, doc.putItem place n (.value (node.paramValue literals))) := by
  unfold contribute
  rw [hk, hc]
  rfl

/-- What a named parameter contributes. -/
theorem Evaluating.contribute_named {node : Node} {place : Nat} {target : Target} (hk : node.kind.isNamedParam = true)
    (ht : targetIn node scope = some target) (hc : scope.get .params = some (.place place)) (literals : List Value)
    (n : Handle) (id : Value) (doc : Document) :
    contribute node literals scope n id doc =
      (.ok none, (doc.addReference target (Reference.ofName node.targetCalled (node.get .name))).putItem place n
        (.reference doc.references.size)) := by
  unfold contribute
  rw [ht, hc]
  generalize node.kind = kind at hk
  match kind with
  | .namedParam | .variableParam | .objectParam | .pictureParam | .soundParam => rfl

/-- Where a plain parameter is visited a named one is, if it may stand there. -/
theorem Evaluating.visit_of_holding {mark : Nat} {v : Value} {out : Option NodeScope} {e e₁ f : Evaluation}
    (h : scope.Below above e.document) (hk : b.kind.isNamedParam = true) (hp : b.Placed above) (hf : e.Redraft f)
    (hv : visit mark (.holding v) [] scope e = (.ok out, e₁)) :
    ∃ f₁, visit mark b.node [] scope f = (.ok out, f₁) ∧ e₁.Redraft f₁ := by
  obtain ⟨hhandle, doc, notices, hd, henter⟩ := enter_redraft hf mark (.holding v) b.node
  rw [visit_apply, staged_apply] at hv
  cases ha : admission (.holding v) [] scope (e.enter mark (.holding v)).document with
  | error _ =>
    rw [ha] at hv
    cases hv
  | ok _ =>
    obtain ⟨⟨collector, hc⟩, -⟩ : Admissible (.holding v) [] scope (e.enter mark (.holding v)).document :=
      admission_eq_ok_iff.mp ha
    obtain ⟨place, rfl, -⟩ := h.within.params collector hc
    rw [ha, request_of_isParam rfl] at hv
    have hkind : (Node.holding v).kind = .param := rfl
    simp only [contribute_param hkind hc] at hv
    cases hv
    obtain ⟨hadmissible, target, htarget⟩ := h.admits hk hp hc []
    have hadmission : admission b.node [] scope (f.enter mark b.node).document = .ok () := by
      rw [henter]
      exact (admission_redraft hd b.node [] scope).trans (admission_eq_ok_iff.mpr hadmissible)
    rw [visit_apply, staged_apply, hadmission, request_of_isParam (Kind.isParam_of_isNamedParam hk)]
    simp only [contribute_named hk htarget hc, hhandle, henter]
    exact ⟨_, rfl, _, notices, (hd.addReference _ _).putItem place _ _ _, rfl⟩

end

namespace Evaluating

mutual

/-- A tree is evaluated, whatever the drafts are, if it is when it has been settled. -/
theorem evaluate_of_settled {names : Names} (tree : Tree Nat) {t : Tree Value} {supply supply' : IdSupply}
    {above : List Branch} {scope : NodeScope} {e e' f : Evaluation} (hn : tree.named supply = (.ok t, supply'))
    (hp : Tree.Everywhere (fun above b => b.kind.isNamedParam = true → b.Placed above ∧ b.Holds) above t)
    (hs : scope.Below above e.document) (hf : e.Redraft f) (h : evaluate (tree.settle names t) scope e = (.ok (), e')) :
    ∃ f', evaluate tree scope f = (.ok (), f') ∧ e'.Redraft f' ∧ e.document.Later e'.document := by
  match tree with
  | .literal v =>
    rw [Tree.settle_literal, evaluate] at h
    cases h
  | .node mark data children =>
    rw [Tree.named] at hn
    obtain ⟨id, s₁, -, hn⟩ := Attempt.bind_eq_ok_iff.mp hn
    obtain ⟨ts, s₂, hts, hn⟩ := Attempt.bind_eq_ok_iff.mp hn
    cases hn
    rw [Tree.Everywhere] at hp
    obtain ⟨hb, hbelow⟩ := hp
    rw [Tree.settle] at h
    split at h
    · next hk =>
      -- nothing is below a named parameter, nor below the plain one that stands for it
      obtain ⟨hplaced, hholds⟩ := hb hk
      obtain rfl : ts = [] := hholds.children_eq_nil hk
      obtain ⟨rfl, -⟩ := Tree.eq_nil_of_allNamed hts
      rw [evaluate_node] at h ⊢
      obtain ⟨out, e₁, hv, h⟩ := Attempt.bind_eq_ok_iff.mp h
      obtain ⟨f₁, hv', hf₁⟩ := visit_of_holding (b := ⟨id, data, []⟩) hs hk hplaced hf hv
      obtain ⟨id', e₀, -, heff, -⟩ := effect_of_visit hv
      cases h
      exact ⟨f₁, Attempt.bind_eq_ok_iff.mpr ⟨out, f₁, hv', rfl⟩, hf₁, heff.later⟩
    · rw [evaluate_node, Tree.literals_settleAll] at h
      rw [evaluate_node]
      obtain ⟨out, e₁, hv, h⟩ := Attempt.bind_eq_ok_iff.mp h
      obtain ⟨f₁, hv', hf₁⟩ := visit_of_redraft hf hv
      obtain ⟨id', e₀, -, heff, -⟩ := effect_of_visit hv
      have hinner : ∀ inner, out = some inner → inner.Below (⟨id, data, ts⟩ :: above) e₁.document := by
        rintro inner rfl
        exact hs.inner heff rfl
      obtain ⟨f', hc, hf', hl⟩ := evaluateChildren_of_settled children hts hbelow hinner hf₁ h
      exact ⟨f', Attempt.bind_eq_ok_iff.mpr ⟨out, f₁, hv', hc⟩, hf', heff.later.trans hl⟩

/-- The children of a node are evaluated, whatever the drafts are, if they are when they have been settled. -/
theorem evaluateChildren_of_settled {names : Names} (children : List (Tree Nat)) {parent : Node}
    {out : Option NodeScope} {ts : List (Tree Value)} {supply supply' : IdSupply} {above : List Branch}
    {e e' f : Evaluation}
    (hn : Tree.allNamed children supply = (.ok ts, supply'))
    (hp : Tree.EverywhereIn (fun above b => b.kind.isNamedParam = true → b.Placed above ∧ b.Holds) above ts)
    (hs : ∀ scope, out = some scope → scope.Below above e.document) (hf : e.Redraft f)
    (h : evaluateChildren parent out (Tree.settleAll names children ts) e = (.ok (), e')) :
    ∃ f', evaluateChildren parent out children f = (.ok (), f') ∧ e'.Redraft f' ∧ e.document.Later e'.document := by
  match children with
  | [] =>
    rw [Tree.settleAll_nil] at h
    cases h
    exact ⟨f, rfl, hf, .refl _⟩
  | child :: rest =>
    rw [Tree.allNamed] at hn
    obtain ⟨t, s₁, ht, hn⟩ := Attempt.bind_eq_ok_iff.mp hn
    obtain ⟨us, s₂, hus, hn⟩ := Attempt.bind_eq_ok_iff.mp hn
    cases hn
    rw [Tree.EverywhereIn] at hp
    rw [Tree.settleAll] at h
    match child with
    | .literal v =>
      rw [Tree.settle_literal, evaluateChildren_literal] at h
      rw [evaluateChildren_literal]
      split at h
      · next hk =>
        rw [if_pos hk]
        exact evaluateChildren_of_settled rest hus hp.2 hs hf h
      · cases h
    | .node mark data inner =>
      obtain ⟨data', inner', hnode⟩ := Tree.exists_settle_node names mark data inner t
      rw [hnode, evaluateChildren_node, ← hnode] at h
      rw [evaluateChildren_node]
      cases out with
      | none => cases h
      | some scope =>
        obtain ⟨_, e₁, hfirst, h⟩ := Attempt.bind_eq_ok_iff.mp h
        obtain ⟨f₁, hfirst', hf₁, hl₁⟩ := evaluate_of_settled (.node mark data inner) ht hp.1 (hs scope rfl) hf hfirst
        have hs₁ : ∀ scope', some scope = some scope' → scope'.Below above e₁.document :=
          fun scope' he => (hs scope' he).later hl₁
        obtain ⟨f', hrest, hf', hl⟩ := evaluateChildren_of_settled rest hus hp.2 hs₁ hf₁ h
        exact ⟨f', Attempt.bind_eq_ok_iff.mpr ⟨(), f₁, hfirst', hrest⟩, hf', hl₁.trans hl⟩

end

end Evaluating

end SceneTree
