import Mathlib.Data.List.Nodup
import SceneTree.Proofs.Evaluation.Ownership

/-!
# Runs of an evaluator

An evaluator may be called any number of times, with nodes that change in between, and a call that fails leaves behind
what it did until then. All of that is a passage through visits. In every state that is passed the tables of ids agree,
no node ever gets another handle, and a node that asks for no id of its own keeps the one it has.
-/

namespace SceneTree

namespace Node

/-- The id that is authored on a node, if there is one, is a text. -/
def AuthorsText (node : Node) : Prop := ∀ id ∈ node.requestedId?, id.IsTextOrNull

instance (node : Node) : Decidable node.AuthorsText :=
  inferInstanceAs (Decidable (∀ id ∈ node.requestedId?, id.IsTextOrNull))

/-- No id is authored on a node: it asks for none, or for a new one. -/
def AuthorsNone (node : Node) : Prop := ∀ id ∈ node.requestedId?, id.truthy = false

end Node

namespace Evaluating

variable {node : Node} {literals : List Value} {scope : NodeScope} {handle : Handle} {e e' : Evaluation}

/-- A node that asks for an id changes the tables of ids as the giving of an id does, and another node does not. -/
theorem request_eq (node : Node) (handle : Handle) (e : Evaluation) :
    (∃ id ∈ node.requestedId?, request node handle e = instanceId handle id e) ∨
      request node handle e = (.ok .null, e) := by
  unfold request
  cases node.requestedId? with
  | none => exact .inr rfl
  | some id => exact .inl ⟨id, rfl, rfl⟩

/-- All that the stages of a contribution change besides the document, the request of an id changes. -/
theorem staged_snd (node : Node) (literals : List Value) (scope : NodeScope) (handle : Handle) (e : Evaluation) :
    (staged node literals scope handle e).2 = e ∨
      ∃ doc, (staged node literals scope handle e).2 = { (request node handle e).2 with document := doc } := by
  rw [staged_apply]
  cases admission node literals scope e.document with
  | error _ => exact .inl rfl
  | ok _ =>
    simp only
    rcases request node handle e with ⟨_ | id, e'⟩
    · exact .inr ⟨e'.document, rfl⟩
    · exact .inr ⟨_, rfl⟩

end Evaluating

namespace Evaluation

variable {e : Evaluation} {mark : Nat} {node : Node}

/-- A handle is the position of a mark. -/
theorem handle?_eq_some_iff (h : e.met.Nodup) {handle : Handle} :
    e.handle? mark = some handle ↔ e.met[handle]? = some mark := by
  unfold handle?
  rw [List.idxOf?_eq_some_iff, List.getElem?_eq_some_iff]
  constructor
  · rintro ⟨hb, he, -⟩
    exact ⟨hb, he⟩
  · rintro ⟨hb, he⟩
    refine ⟨hb, he, fun j hj hm => ?_⟩
    have hij := (List.getElem_inj h).mp (hm.trans he.symm)
    omega

/-- A node that was met before is not met again. -/
theorem met_enter_of_handle? {handle : Handle} (h : e.handle? mark = some handle) :
    (e.enter mark node).met = e.met := by
  simp [enter, h]

/-- A new node comes after all others. -/
theorem met_enter_of_not_mem (h : e.handle? mark = none) : (e.enter mark node).met = e.met ++ [mark] := by
  simp [enter, h]

/-- The nodes that were met before come first. -/
theorem met_enter (e : Evaluation) (mark : Nat) (node : Node) : e.met <+: (e.enter mark node).met := by
  cases h : e.handle? mark with
  | none =>
    rw [met_enter_of_not_mem h]
    exact List.prefix_append _ _
  | some _ => exact ⟨[], by rw [List.append_nil, met_enter_of_handle? h]⟩

/-- The node that is reached has its handle. -/
theorem handleFor_lt (e : Evaluation) (mark : Nat) (node : Node) :
    e.handleFor mark < (e.enter mark node).met.length := by
  unfold handleFor
  cases h : e.handle? mark with
  | none =>
    rw [met_enter_of_not_mem h]
    simp
  | some handle =>
    rw [met_enter_of_handle? h]
    exact (List.idxOf?_eq_some_iff.mp h).1

/-- The tables agree when a node is reached. -/
theorem Owned.enter (h : e.Owned) (mark : Nat) (node : Node) : (e.enter mark node).Owned := by
  refine ⟨?_, ?_, h.keyed, h.inverse, h.issued⟩
  · cases hm : e.handle? mark with
    | none =>
      rw [met_enter_of_not_mem hm]
      have hn : mark ∉ e.met := List.idxOf?_eq_none_iff.mp hm
      refine List.nodup_append.mpr ⟨h.met, List.nodup_singleton mark, ?_⟩
      intro m hm m' hm' he
      rw [List.mem_singleton.mp hm'] at he
      exact hn (he ▸ hm)
    | some _ =>
      rw [met_enter_of_handle? hm]
      exact h.met
  · intro handle id hi
    exact Nat.lt_of_lt_of_le (h.bound hi) (met_enter e mark node).length_le

/-- A handle that a node has stays its handle when more nodes are met. -/
theorem handle?_mono {e e' : Evaluation} (h : e'.met.Nodup) (hp : e.met <+: e'.met) {handle : Handle}
    (hm : e.handle? mark = some handle) : e'.handle? mark = some handle := by
  have hn : e.met.Nodup := h.sublist hp.sublist
  rw [handle?_eq_some_iff hn] at hm
  rw [handle?_eq_some_iff h]
  obtain ⟨rest, hr⟩ := hp
  rw [← hr, List.getElem?_append_left (List.getElem?_eq_some_iff.mp hm).1]
  exact hm

/-- The node that gets the handle of another one is that one. -/
theorem eq_of_handleFor_eq (h : e.met.Nodup) {mark' : Nat} {handle : Handle} (hf : e.handleFor mark' = handle)
    (hm : e.handle? mark = some handle) : mark' = mark := by
  unfold handleFor at hf
  rw [handle?_eq_some_iff h] at hm
  have hlt := (List.getElem?_eq_some_iff.mp hm).1
  cases hm' : e.handle? mark' with
  | none =>
    rw [hm', Option.getD_none] at hf
    exact absurd hf (Nat.ne_of_gt hlt)
  | some handle' =>
    rw [hm', Option.getD_some] at hf
    rw [hf, handle?_eq_some_iff h] at hm'
    exact Option.some_inj.mp (hm'.symm.trans hm)

end Evaluation

namespace Evaluating

/-- Meeting is over when an id is requested. -/
theorem met_request (node : Node) (handle : Handle) (e : Evaluation) : (request node handle e).2.met = e.met := by
  rcases request_eq node handle e with ⟨id, -, h⟩ | h
  · rw [h]
    exact met_instanceId handle id e
  · rw [h]

/-- A request leaves the document alone. -/
theorem document_request (node : Node) (handle : Handle) (e : Evaluation) :
    (request node handle e).2.document = e.document := by
  rcases request_eq node handle e with ⟨authored, -, h⟩ | h
  · rw [h]
    exact document_instanceId handle e authored
  · rw [h]

/-- A request that is refused leaves the ids alone. -/
theorem idOf?_of_request_eq_error {fault : Fault} (h : request node handle e = (.error fault, e')) (n : Handle) :
    e'.idOf? n = e.idOf? n := by
  rcases request_eq node handle e with ⟨authored, -, hr⟩ | hr
  · rw [hr] at h
    unfold Evaluation.idOf?
    rw [(ids_of_instanceId_eq_error h).1]
  · rw [hr] at h
    cases h

/-- A request that is granted leaves the ids of the other handles alone. -/
theorem idOf?_of_request_eq_ok {id : Value} (h : request node handle e = (.ok id, e')) {n : Handle} (hn : n ≠ handle) :
    e'.idOf? n = e.idOf? n := by
  rcases request_eq node handle e with ⟨authored, -, hr⟩ | hr
  · rw [hr] at h
    rw [idOf?_of_instanceId_eq_ok h, if_neg hn]
  · rw [hr] at h
    cases h
    rfl

/-- The tables agree after a request. -/
theorem owned_request (h : e.Owned) (hh : handle < e.met.length) (hn : node.AuthorsText) :
    (request node handle e).2.Owned := by
  rcases request_eq node handle e with ⟨id, hid, hr⟩ | hr
  · rw [hr]
    exact owned_instanceId h hh (hn id hid)
  · rw [hr]
    exact h

/-- A request changes at most the id of the handle that it is for, and not even that if the handle keeps an id and none
is authored. -/
theorem idOf?_request {handle' : Handle} {id : Value} (hi : e.idOf? handle' = some id)
    (hn : handle' = handle → node.AuthorsNone) : (request node handle e).2.idOf? handle' = some id := by
  rcases request_eq node handle e with ⟨authored, ha, hr⟩ | hr
  · rw [hr]
    by_cases hh : handle' = handle
    · subst hh
      rw [instanceId_of_kept (hn rfl authored ha) hi]
      exact hi
    · rcases hx : instanceId handle authored e with ⟨_ | new, e'⟩
      · simp only [Evaluation.idOf?, (ids_of_instanceId_eq_error hx).1]
        exact hi
      · rw [idOf?_of_instanceId_eq_ok hx, if_neg hh]
        exact hi
  · rw [hr]
    exact hi

/-- The tables agree after a visit. -/
theorem owned_visit (h : e.Owned) (mark : Nat) (hn : node.AuthorsText) (literals : List Value) (scope : NodeScope) :
    (visit mark node literals scope e).2.Owned := by
  have he := h.enter mark node
  rw [visit_apply]
  rcases staged_snd node literals scope (e.handleFor mark) (e.enter mark node) with hs | ⟨doc, hs⟩
  · rw [hs]
    exact he
  · rw [hs]
    have hr := owned_request he (e.handleFor_lt mark node) hn
    exact ⟨hr.met, hr.bound, hr.keyed, hr.inverse, hr.issued⟩

/-- The nodes that were met before a visit come first after it. -/
theorem met_visit (mark : Nat) (node : Node) (literals : List Value) (scope : NodeScope) (e : Evaluation) :
    e.met <+: (visit mark node literals scope e).2.met := by
  have he := Evaluation.met_enter e mark node
  rw [visit_apply]
  rcases staged_snd node literals scope (e.handleFor mark) (e.enter mark node) with hs | ⟨doc, hs⟩
  · rw [hs]
    exact he
  · rw [hs]
    exact (met_request node _ _).symm ▸ he

/-- A visit leaves the id of a node alone, unless one is authored on that node. -/
theorem idOf?_visit (mark : Nat) (node : Node) (literals : List Value) (scope : NodeScope) {n : Handle} {id : Value}
    (hi : e.idOf? n = some id) (hn : e.handleFor mark = n → node.AuthorsNone) :
    (visit mark node literals scope e).2.idOf? n = some id := by
  rw [visit_apply]
  rcases staged_snd node literals scope (e.handleFor mark) (e.enter mark node) with hs | ⟨doc, hs⟩
  · rw [hs]
    exact hi
  · rw [hs]
    exact idOf?_request (e := e.enter mark node) hi fun h => hn h.symm

/-- An evaluator passes from one state to another by visits of nodes of some sort. -/
inductive Passes (P : Nat → Node → Prop) (e : Evaluation) : Evaluation → Prop where
  | refl : Passes P e e
  | visit {e' : Evaluation} {mark : Nat} {node : Node} (literals : List Value) (scope : NodeScope) :
      Passes P e e' → P mark node → Passes P e (visit mark node literals scope e').2

/-- A call of an evaluator: a tree, as it is then, and a scope. -/
structure Call where
  tree : Tree Nat
  scope : NodeScope

/-- A run of an evaluator: its calls in order, whether they succeed or not. -/
def run (calls : List Call) (e : Evaluation) : Evaluation :=
  calls.foldl (fun e call => (evaluate call.tree call.scope e).2) e

variable {P : Nat → Node → Prop}

/-- A call is a passage through visits of the nodes of its tree. -/
theorem Passes.evaluate (h : Passes P e e') (tree : Tree Nat) (scope : NodeScope)
    (hP : ∀ n ∈ tree.nodes, P n.1 n.2) : Passes P e (evaluate tree scope e').2 :=
  evaluate_keeps (fun _ _ literals scope hn _ he => he.visit literals scope hn) tree scope hP e' h

/-- A run is a passage through visits of the nodes of its trees. -/
theorem Passes.run (h : Passes P e e') (calls : List Call) (hP : ∀ call ∈ calls, ∀ n ∈ call.tree.nodes, P n.1 n.2) :
    Passes P e (run calls e') := by
  induction calls generalizing e' with
  | nil => exact h
  | cons call rest ih =>
    refine ih (h.evaluate call.tree call.scope (hP call List.mem_cons_self)) ?_
    exact fun c hc => hP c (List.mem_cons_of_mem _ hc)

/-- The tables agree in every state that is passed. -/
theorem Passes.owned (h : Passes (fun _ node => node.AuthorsText) e e') (he : e.Owned) : e'.Owned := by
  induction h with
  | refl => exact he
  | visit literals scope _ hn ih => exact owned_visit ih _ hn literals scope

/-- The nodes that were met come first in every state that is passed later. -/
theorem Passes.met (h : Passes P e e') : e.met <+: e'.met := by
  induction h with
  | refl => exact List.prefix_refl _
  | visit literals scope _ _ ih => exact ih.trans (met_visit _ _ literals scope _)

/-- Fewer demands on the nodes that are visited. -/
theorem Passes.mono {Q : Nat → Node → Prop} (h : Passes P e e') (hPQ : ∀ mark node, P mark node → Q mark node) :
    Passes Q e e' := by
  induction h with
  | refl => exact .refl
  | visit literals scope _ hn ih => exact ih.visit literals scope (hPQ _ _ hn)

/-- A node keeps its handle in every state that is passed later. -/
theorem Passes.handle? (h : Passes (fun _ node => node.AuthorsText) e e') (he : e.Owned) {mark n : Nat}
    (hm : e.handle? mark = some n) : e'.handle? mark = some n :=
  Evaluation.handle?_mono (h.owned he).met h.met hm

/-- A node keeps its id as long as it is visited only without an authored one. -/
theorem Passes.idOf? {mark n : Nat} {id : Value}
    (h : Passes (fun m node => node.AuthorsText ∧ (m = mark → node.AuthorsNone)) e e') (he : e.Owned)
    (hm : e.handle? mark = some n) (hi : e.idOf? n = some id) : e'.idOf? n = some id := by
  induction h with
  | refl => exact hi
  | visit literals scope hp hn ih =>
    have hp := hp.mono fun _ _ hn => hn.1
    have hm' := hp.handle? he hm
    refine idOf?_visit _ _ literals scope ih fun hf => hn.2 ?_
    exact Evaluation.eq_of_handleFor_eq (hp.owned he).met hf hm'

/-- In every state that an evaluator passes, whatever trees it is called with in whatever scopes, the handles of the
nodes that were met are the numbers from zero on, one for each; an id belongs to a handle if and only if the handle
keeps it; and the ids that are kept are in use. Whatever comes later, the nodes keep their handles, and a node for which
no id is authored any more keeps its id. Runs of calls are such passages. -/
theorem ids_throughout {supply : IdSupply} {e : Evaluation}
    (h : Passes (fun _ node => node.AuthorsText) (.start supply) e) :
    (∀ n, n < e.met.length ↔ ∃ mark, e.handle? mark = some n) ∧
    (∀ mark mark' n, e.handle? mark = some n → e.handle? mark' = some n → mark = mark') ∧
    (∀ n id, e.ownerOf? id = some n ↔ e.idOf? n = some id) ∧
    (∀ n id, e.idOf? n = some id → e.supply.pool.contains id = true) ∧
    (∀ e', Passes (fun _ node => node.AuthorsText) e e' →
      ∀ mark n, e.handle? mark = some n → e'.handle? mark = some n) ∧
    (∀ mark e', Passes (fun m node => node.AuthorsText ∧ (m = mark → node.AuthorsNone)) e e' →
      ∀ n id, e.handle? mark = some n → e.idOf? n = some id → e'.idOf? n = some id) ∧
    ∀ P calls, (∀ call ∈ calls, ∀ n ∈ call.tree.nodes, P n.1 n.2) → Passes P e (run calls e) := by
  have he := h.owned (.start supply)
  refine ⟨?_, ?_, he.inverse, fun n id => he.issued, ?_, ?_, ?_⟩
  · intro n
    simp only [Evaluation.handle?_eq_some_iff he.met]
    constructor
    · exact fun hn => ⟨_, List.getElem?_eq_getElem hn⟩
    · rintro ⟨mark, hm⟩
      exact (List.getElem?_eq_some_iff.mp hm).1
  · intro mark mark' n hm hm'
    rw [Evaluation.handle?_eq_some_iff he.met] at hm hm'
    exact Option.some_inj.mp (hm.symm.trans hm')
  · exact fun e' hp mark n hm => hp.handle? he hm
  · exact fun mark e' hp n id hm hi => hp.idOf? he hm hi
  · exact fun P calls hP => Passes.refl.run calls hP

/-- A call with a single node of a kind, on which an id is authored, inside a project. -/
def entryCall (kind : Kind) (mark : Nat) (id : String) : Call :=
  ⟨.node mark ⟨kind, fun field => if field = .id then .str id else .null⟩ [], Scope.empty.bind .project (some ())⟩

/-- A scene exchanges its id for another, and a message takes the one that has become free. -/
def exchange : List Call := [entryCall .scene 7 "a", entryCall .scene 7 "b", entryCall .message 9 "a"]

/-- After the exchange each of the two ids belongs to the other node. -/
theorem ids_throughout_exchange :
    let e := run exchange (.start ⟨.empty, .counting []⟩)
    Passes (fun _ node => node.AuthorsText) (.start ⟨.empty, .counting []⟩) e ∧
      e.ownerOf? (.str "b") = some 0 ∧ e.ownerOf? (.str "a") = some 1 := by
  intro e
  have hP : ∀ call ∈ exchange, ∀ n ∈ call.tree.nodes, n.2.AuthorsText := by
    simp [exchange, entryCall, Tree.nodes, Tree.nodesOf, Node.AuthorsText, Node.requestedId?, Value.IsTextOrNull]
  have h := Passes.refl.run (P := fun _ node => node.AuthorsText) (e := .start ⟨.empty, .counting []⟩) exchange hP
  have hi := (ids_throughout h).2.2.1
  exact ⟨h, (hi 0 (.str "b")).mpr (by with_unfolding_all rfl), (hi 1 (.str "a")).mpr (by with_unfolding_all rfl)⟩

end Evaluating

end SceneTree
