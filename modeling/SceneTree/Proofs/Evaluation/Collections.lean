import SceneTree.Proofs.Cells
import SceneTree.Proofs.Evaluation.Runs

/-!
# The ids in the collections of a document

The scenes, objects, variables, messages and functions of a document share their ids with the tables of the evaluator
that fills it. `Filed` says for one collection that each of its entries carries the id that the handle it stands under
keeps. A visit that changes the id of a node replaces the entry of the node as well, and a project that is visited again
begins with empty collections.
-/

namespace SceneTree

/-- The collections of a document whose entries have ids. -/
inductive Collection where
  | scenes | objects | globals | messages | functions
  deriving DecidableEq, Repr

/-- The collections in their order. -/
def Collection.all : List Collection := [scenes, objects, globals, messages, functions]

/-- The collection in which the nodes of a kind have their entries. -/
def Kind.collection? : Kind → Option Collection
  | .scene => some .scenes
  | .object | .sprite | .textBox => some .objects
  | .variable => some .globals
  | .message => some .messages
  | .function => some .functions
  | _ => none

namespace Document

/-- The entries of a collection: the handle that each stands under and its id, if the entry is there. -/
def idsIn (doc : Document) : Collection → List (Handle × Option Value)
  | .scenes => doc.scenes.entries.map fun p => (p.1, some p.2.id)
  | .objects => doc.objects.entries.map fun p => (p.1, (doc.objectCells.get? p.2).map (·.id))
  | .globals => doc.globals.entries.map fun p => (p.1, some p.2.id)
  | .messages => doc.messages.entries.map fun p => (p.1, some p.2.id)
  | .functions => doc.functions.entries.map fun p => (p.1, (doc.functionCells.get? p.2).map (·.id))

/-- The entries of all collections. -/
def entryIds (doc : Document) : List (Handle × Option Value) := Collection.all.flatMap doc.idsIn

end Document

/-- The entries of a collection when a handle has contributed an entry with an id. -/
def refile (entries : List (Handle × Option Value)) (handle : Handle) (id : Value) : List (Handle × Option Value) :=
  entries.eraseP (·.1 == handle) ++ [(handle, some id)]

namespace Roster

variable {α : Type}

/-- What the entries of a roster show of themselves, when there is a new one. -/
theorem map_insert (r : Roster Handle α) (handle : Handle) (a : α) (f : α → Option Value) {id : Value}
    (hf : f a = some id) :
    (r.insert handle a).entries.map (fun p => (p.1, f p.2)) =
      refile (r.entries.map fun p => (p.1, f p.2)) handle id := by
  unfold refile
  rw [entries_insert, List.map_append, List.eraseP_map]
  simp only [List.map_cons, List.map_nil, hf]
  rfl

end Roster

namespace Document

variable {doc : Document} {handle : Handle} {id : Value}

theorem idsIn_populate (head : ProjectHead) (handle : Handle) (c : Collection) :
    (doc.populate head handle).idsIn c = [] := by
  cases c <;> rfl

theorem idsIn_addPlace (c : Collection) : doc.addPlace.idsIn c = doc.idsIn c := by
  cases c <;> rfl

theorem idsIn_putItem (place : Nat) (handle : Handle) (item : Item) (c : Collection) :
    (doc.putItem place handle item).idsIn c = doc.idsIn c := by
  cases c <;> rfl

theorem idsIn_addReference (target : Target) (reference : Reference) (c : Collection) :
    (doc.addReference target reference).idsIn c = doc.idsIn c := by
  cases c <;> rfl

theorem idsIn_addTable (handle : Handle) (data : Entries) (c : Collection) :
    (doc.addTable handle data).idsIn c = doc.idsIn c := by
  cases c <;> rfl

theorem idsIn_changeObject (index : Nat) {f : ObjectEntry → ObjectEntry} (h : ∀ object, (f object).id = object.id)
    (c : Collection) : (doc.changeObject index f).idsIn c = doc.idsIn c := by
  cases c with
  | objects =>
    simp only [idsIn, changeObject,
      Cells.map_get?_modify _ index (g := fun object : ObjectEntry => object.id) h]
  | _ => rfl

theorem idsIn_changeFunction (index : Nat) {f : FunctionEntry → FunctionEntry}
    (h : ∀ function, (f function).id = function.id) (c : Collection) :
    (doc.changeFunction index f).idsIn c = doc.idsIn c := by
  cases c with
  | functions =>
    simp only [idsIn, changeFunction,
      Cells.map_get?_modify _ index (g := fun function : FunctionEntry => function.id) h]
  | _ => rfl

theorem idsIn_addScene (entry : SceneEntry) (c : Collection) :
    (doc.addScene handle entry).idsIn c =
      if c = .scenes then refile (doc.idsIn c) handle entry.id else doc.idsIn c := by
  cases c with
  | scenes => exact Roster.map_insert _ handle entry (fun entry => some entry.id) rfl
  | _ => rfl

theorem idsIn_addVariable (entry : VariableEntry) (c : Collection) :
    (doc.addVariable handle entry).idsIn c =
      if c = .globals then refile (doc.idsIn c) handle entry.id else doc.idsIn c := by
  cases c with
  | globals => exact Roster.map_insert _ handle entry (fun entry => some entry.id) rfl
  | _ => rfl

theorem idsIn_addMessage (entry : MessageEntry) (c : Collection) :
    (doc.addMessage handle entry).idsIn c =
      if c = .messages then refile (doc.idsIn c) handle entry.id else doc.idsIn c := by
  cases c with
  | messages => exact Roster.map_insert _ handle entry (fun entry => some entry.id) rfl
  | _ => rfl

/-- A new object is shown besides those that are there. -/
theorem idsIn_addObject (h : ∀ p ∈ doc.idsIn .objects, p.2.isSome) (entry : ObjectEntry) (selected : Bool)
    (c : Collection) :
    (doc.addObject handle entry selected).idsIn c =
      if c = .objects then refile (doc.idsIn c) handle entry.id else doc.idsIn c := by
  cases c with
  | objects =>
    rw [if_pos rfl]
    refine (Roster.map_insert doc.objects handle doc.objectCells.size
      (fun index => ((doc.objectCells.add entry).get? index).map (·.id))
      (by rw [Cells.get?_add_self, Option.map_some])).trans ?_
    congr 1
    refine List.map_congr_left fun p hp => ?_
    have hs := h (p.1, (doc.objectCells.get? p.2).map (·.id)) (List.mem_map_of_mem hp)
    rw [Option.isSome_map] at hs
    rw [Cells.get?_add_of_ne _ _ (Nat.ne_of_lt (Cells.isSome_get?_iff.mp hs))]
  | _ => rfl

/-- A new function is shown besides those that are there. -/
theorem idsIn_addFunction (h : ∀ p ∈ doc.idsIn .functions, p.2.isSome) (entry : FunctionEntry) (c : Collection) :
    (doc.addFunction handle entry).idsIn c =
      if c = .functions then refile (doc.idsIn c) handle entry.id else doc.idsIn c := by
  cases c with
  | functions =>
    rw [if_pos rfl]
    refine (Roster.map_insert doc.functions handle doc.functionCells.size
      (fun index => ((doc.functionCells.add entry).get? index).map (·.id))
      (by rw [Cells.get?_add_self, Option.map_some])).trans ?_
    congr 1
    refine List.map_congr_left fun p hp => ?_
    have hs := h (p.1, (doc.functionCells.get? p.2).map (·.id)) (List.mem_map_of_mem hp)
    rw [Option.isSome_map] at hs
    rw [Cells.get?_add_of_ne _ _ (Nat.ne_of_lt (Cells.isSome_get?_iff.mp hs))]
  | _ => rfl

end Document

section Refile

variable {entries : List (Handle × Option Value)} {handle : Handle} {id : Value} {p : Handle × Option Value}

/-- What is left when the entry of a handle is taken back. -/
theorem mem_eraseP_handle (h : (entries.map (·.1)).Nodup) :
    p ∈ entries.eraseP (·.1 == handle) ↔ p ∈ entries ∧ p.1 ≠ handle := by
  have hk : entries.Pairwise fun a b => (a.1 == handle) = true → (b.1 == handle) = false := by
    refine (List.pairwise_map.mp h).imp fun hne ha => Bool.eq_false_iff.mpr fun hb => hne ?_
    exact (beq_iff_eq.mp ha).trans (beq_iff_eq.mp hb).symm
  rw [Ownership.mem_eraseP_iff hk, Bool.eq_false_iff, ne_eq, beq_iff_eq]

/-- When a handle contributes again, its earlier entry is gone and the others stay. -/
theorem mem_refile_iff (h : (entries.map (·.1)).Nodup) :
    p ∈ refile entries handle id ↔ p ∈ entries ∧ p.1 ≠ handle ∨ p = (handle, some id) := by
  rw [refile, List.mem_append, mem_eraseP_handle h, List.mem_singleton]

/-- A handle that contributes again still has one entry. -/
theorem nodup_refile (h : (entries.map (·.1)).Nodup) : ((refile entries handle id).map (·.1)).Nodup := by
  have hs : (entries.eraseP (·.1 == handle)).Sublist entries := List.eraseP_sublist
  rw [refile, List.map_append, List.nodup_append]
  refine ⟨h.sublist (hs.map _), List.nodup_singleton handle, ?_⟩
  intro a ha b hb hab
  obtain ⟨p, hp, rfl⟩ := List.mem_map.mp ha
  exact ((mem_eraseP_handle h).mp hp).2 (hab.trans (List.mem_singleton.mp hb))

end Refile

namespace Evaluating

variable {handle : Handle} {doc : Document}

/-- An item that is delivered to a place is none of the entries with ids. -/
theorem idsIn_deliver (collector : Option Collector) (item : Item) (inner : Option NodeScope) (c : Collection) :
    (deliver collector handle item inner doc).2.idsIn c = doc.idsIn c := by
  match collector with
  | none | some .foreign => rfl
  | some (.place place) => exact Document.idsIn_putItem place handle item c

/-- A contribution replaces the entry of its handle in the collection that it goes to, and leaves the other collections
alone; a project empties all of them. -/
theorem idsIn_contribute (node : Node) (literals : List Value) (scope : NodeScope) (handle : Handle) (id : Value)
    (h : ∀ c, ∀ p ∈ doc.idsIn c, p.2.isSome) (c : Collection) :
    (contribute node literals scope handle id doc).2.idsIn c =
      if node.kind = .project then []
      else if node.kind.collection? = some c then refile (doc.idsIn c) handle id
      else doc.idsIn c := by
  match hk : node.kind with
  | .project =>
    simp only [contribute, hk, Document.idsIn_populate, if_true]
  | .scene =>
    simp only [contribute, hk, Document.idsIn_addScene, Kind.collection?]
    cases c <;> rfl
  | .object | .sprite | .textBox =>
    simp only [contribute, hk, Kind.collection?]
    rw [Document.idsIn_addObject (by rw [Document.idsIn_addPlace]; exact h .objects), Document.idsIn_addPlace]
    cases c <;> rfl
  | .variable =>
    simp only [contribute, hk, Document.idsIn_addVariable, Kind.collection?]
    cases c <;> rfl
  | .message =>
    simp only [contribute, hk, Document.idsIn_addMessage, Kind.collection?]
    cases c <;> rfl
  | .function =>
    simp only [contribute, hk, Kind.collection?]
    rw [Document.idsIn_addFunction (by rw [Document.idsIn_addPlace]; exact h .functions), Document.idsIn_addPlace]
    cases c <;> rfl
  | .fragment => simp [contribute, hk, Kind.collection?]
  | .picture | .sound =>
    simp only [contribute, hk, Kind.collection?]
    cases scope.get .object with
    | none => rfl
    | some index =>
      refine Document.idsIn_changeObject index ?_ c
      exact fun _ => rfl
  | .localVariable =>
    simp only [contribute, hk, Kind.collection?]
    cases scope.get .function with
    | none => rfl
    | some index =>
      refine Document.idsIn_changeFunction index ?_ c
      exact fun _ => rfl
  | .table =>
    simp only [contribute, hk, Kind.collection?]
    exact Document.idsIn_addTable _ _ c
  | .statement =>
    simp only [contribute, hk, Kind.collection?]
    exact (idsIn_deliver _ _ _ c).trans (Document.idsIn_addPlace c)
  | .script =>
    simp only [contribute, hk, Kind.collection?]
    cases (node.get .extensions).items with
    | error _ => rfl
    | ok _ =>
      refine (idsIn_deliver _ _ _ c).trans ?_
      rw [Document.idsIn_addPlace, Document.idsIn_addPlace]
      rfl
  | .param =>
    simp only [contribute, hk, Kind.collection?]
    exact idsIn_deliver _ _ _ c
  | .node | .namedParam | .variableParam | .objectParam | .pictureParam | .soundParam =>
    simp only [contribute, hk, Kind.collection?]
    cases targetIn node scope with
    | none => rfl
    | some target => exact (idsIn_deliver _ _ _ c).trans (Document.idsIn_addReference _ _ c)

end Evaluating

/-- A node with an entry in a collection asks for the id that is authored on it. -/
theorem Node.requestedId?_of_collection? {node : Node} {c : Collection} (h : node.kind.collection? = some c) :
    node.requestedId? = some (node.get .id) := by
  unfold requestedId?
  cases hk : node.kind <;> rw [hk] at h <;> first | rfl | cases h

namespace Evaluation

/-- The collections agree with the tables of ids: a handle has one entry in a collection at most, in the collection of
the kind of its node, and the entry carries the id that the handle keeps. -/
structure Filed (kinds : Nat → Kind) (e : Evaluation) : Prop where
  owned : e.Owned
  tokens : ∀ c, ((e.document.idsIn c).map (·.1)).Nodup
  kind : ∀ c, ∀ p ∈ e.document.idsIn c, ∃ mark, e.handle? mark = some p.1 ∧ (kinds mark).collection? = some c
  id : ∀ c, ∀ p ∈ e.document.idsIn c, ∃ id, p.2 = some id ∧ e.idOf? p.1 = some id

variable {kinds : Nat → Kind} {e e' : Evaluation} {mark : Nat} {node : Node}

/-- Entries that are there have ids. -/
theorem Filed.isSome (h : Filed kinds e) (c : Collection) : ∀ p ∈ e.document.idsIn c, p.2.isSome := by
  intro p hp
  obtain ⟨id, hid, -⟩ := h.id c p hp
  rw [hid]
  rfl

/-- The node that is reached has the handle that it had or gets. -/
theorem handle?_enter (h : e.Owned) (mark : Nat) (node : Node) :
    (e.enter mark node).handle? mark = some (e.handleFor mark) := by
  rw [handle?_eq_some_iff (h.enter mark node).met]
  unfold handleFor
  cases hm : e.handle? mark with
  | none =>
    rw [met_enter_of_not_mem hm, Option.getD_none, List.getElem?_append_right (Nat.le_refl _), Nat.sub_self]
    rfl
  | some handle =>
    rw [met_enter_of_handle? hm]
    exact (handle?_eq_some_iff h.met).mp hm

/-- Handles and ids may change in ways that leave those of the entries alone. -/
theorem Filed.of_eq (h : Filed kinds e) (he : e'.Owned) (hd : e'.document = e.document) (hm : e.met <+: e'.met)
    (hi : ∀ c, ∀ p ∈ e.document.idsIn c, e'.idOf? p.1 = e.idOf? p.1) : Filed kinds e' := by
  refine ⟨he, ?_, ?_, ?_⟩
  · rw [hd]
    exact h.tokens
  · intro c p hp
    rw [hd] at hp
    obtain ⟨mark, hk, ht⟩ := h.kind c p hp
    exact ⟨mark, handle?_mono he.met hm hk, ht⟩
  · intro c p hp
    rw [hd] at hp
    rw [hi c p hp]
    exact h.id c p hp

/-- Reaching a node changes no entry. -/
theorem Filed.enter (h : Filed kinds e) (mark : Nat) (node : Node) : Filed kinds (e.enter mark node) :=
  h.of_eq (h.owned.enter mark node) rfl (met_enter e mark node) fun _ _ _ => rfl

end Evaluation

namespace Evaluating

variable {kinds : Nat → Kind} {e e' : Evaluation} {mark : Nat} {node : Node} {literals : List Value}
  {scope : NodeScope} {handle : Handle} {id : Value}

/-- A node with an entry in a collection keeps the id that it was granted. -/
theorem idOf?_self_of_request_eq_ok (h : request node handle e = (.ok id, e')) {c : Collection}
    (hc : node.kind.collection? = some c) : e'.idOf? handle = some id := by
  rw [request, Node.requestedId?_of_collection? hc] at h
  rw [idOf?_of_instanceId_eq_ok h, if_pos rfl]

/-- A handle that got an id and contributed under it is filed, if its node has the kind of its mark. -/
theorem filed_contribute (h : Evaluation.Filed kinds e) (hm : e.handle? mark = some handle)
    (hk : node.kind = kinds mark) (hr : request node handle e = (.ok id, e')) (he : e'.Owned) :
    Evaluation.Filed kinds { e' with document := (contribute node literals scope handle id e.document).2 } := by
  have hmet : e'.met = e.met := by
    have := met_request node handle e
    rwa [hr] at this
  have hh : ∀ m, e'.handle? m = e.handle? m := by
    intro m
    unfold Evaluation.handle?
    rw [hmet]
  have hdoc := idsIn_contribute node literals scope handle id h.isSome
  refine ⟨⟨he.met, he.bound, he.keyed, he.inverse, he.issued⟩, ?_, ?_, ?_⟩
  · intro c
    simp only [hdoc c]
    split
    · exact List.nodup_nil
    · split
      · exact nodup_refile (h.tokens c)
      · exact h.tokens c
  · intro c p hp
    simp only [hdoc c] at hp
    have hold : ∀ p ∈ e.document.idsIn c, ∃ m, e'.handle? m = some p.1 ∧ (kinds m).collection? = some c := by
      intro p hp
      obtain ⟨m, hpm, hc⟩ := h.kind c p hp
      exact ⟨m, (hh m).trans hpm, hc⟩
    split at hp
    · cases hp
    · split at hp
      · next hc =>
        rcases (mem_refile_iff (h.tokens c)).mp hp with ⟨hp, -⟩ | rfl
        · exact hold p hp
        · exact ⟨mark, (hh mark).trans hm, hk ▸ hc⟩
      · exact hold p hp
  · intro c p hp
    simp only [hdoc c] at hp
    have hold : ∀ p ∈ e.document.idsIn c, p.1 ≠ handle → ∃ i, p.2 = some i ∧ e'.idOf? p.1 = some i := by
      intro p hp hne
      rw [idOf?_of_request_eq_ok hr hne]
      exact h.id c p hp
    split at hp
    · cases hp
    · split at hp
      · next hc =>
        rcases (mem_refile_iff (h.tokens c)).mp hp with ⟨hp, hne⟩ | rfl
        · exact hold p hp hne
        · have hs := idOf?_self_of_request_eq_ok hr hc
          exact ⟨id, rfl, hs⟩
      · next hc =>
        refine hold p hp fun hne => hc ?_
        obtain ⟨m, hpm, hmc⟩ := h.kind c p hp
        rw [hne, Evaluation.handle?_eq_some_iff h.owned.met] at hpm
        rw [Evaluation.handle?_eq_some_iff h.owned.met] at hm
        rw [hk, Option.some_inj.mp (hm.symm.trans hpm)]
        exact hmc

/-- The collections still agree with the tables after a visit. -/
theorem filed_visit (h : Evaluation.Filed kinds e) (hn : node.AuthorsText) (hk : node.kind = kinds mark)
    (literals : List Value) (scope : NodeScope) :
    Evaluation.Filed kinds (visit mark node literals scope e).2 := by
  have he := h.enter mark node
  have hh := Evaluation.handle?_enter h.owned mark node
  rw [visit_apply, staged_apply]
  cases admission node literals scope (e.enter mark node).document with
  | error _ => exact he
  | ok _ =>
    have ho := owned_request he.owned (e.handleFor_lt mark node) hn
    have hd := document_request node (e.handleFor mark) (e.enter mark node)
    have hmet := met_request node (e.handleFor mark) (e.enter mark node)
    rcases hr : request node (e.handleFor mark) (e.enter mark node) with ⟨fault | id, e'⟩
    · rw [hr] at ho hd hmet
      exact he.of_eq ho hd (hmet ▸ List.prefix_refl _) fun _ p _ => idOf?_of_request_eq_error hr p.1
    · rw [hr] at ho hd
      simp only at hd ⊢
      rw [hd]
      exact filed_contribute he hh hk hr ho

/-- The collections agree with the tables in every state that is passed. -/
theorem Passes.filed (h : Passes (fun mark node => node.AuthorsText ∧ node.kind = kinds mark) e e')
    (he : e.Filed kinds) : e'.Filed kinds := by
  induction h with
  | refl => exact he
  | visit literals scope _ hn ih => exact filed_visit ih hn.1 hn.2 literals scope

end Evaluating

namespace Evaluation

variable {kinds : Nat → Kind} {e : Evaluation}

/-- No handle has entries in two collections. -/
theorem Filed.eq_of_mem (h : e.Filed kinds) {c c' : Collection} {p q : Handle × Option Value}
    (hp : p ∈ e.document.idsIn c) (hq : q ∈ e.document.idsIn c') (hpq : p.1 = q.1) : c = c' := by
  obtain ⟨m, hm, hc⟩ := h.kind c p hp
  obtain ⟨m', hm', hc'⟩ := h.kind c' q hq
  rw [handle?_eq_some_iff h.owned.met] at hm hm'
  rw [hpq, hm', Option.some_inj] at hm
  rw [hm, hc, Option.some_inj] at hc'
  exact hc'

/-- No handle has two entries in all collections together. -/
theorem Filed.nodup_handles (h : e.Filed kinds) : (e.document.entryIds.map (·.1)).Nodup := by
  have hall : Collection.all.Nodup := by decide
  rw [Document.entryIds, List.map_flatMap, List.nodup_flatMap]
  refine ⟨fun c _ => h.tokens c, hall.imp fun hne n hn hn' => hne ?_⟩
  obtain ⟨p, hp, hpn⟩ := List.mem_map.mp hn
  obtain ⟨q, hq, hqn⟩ := List.mem_map.mp hn'
  exact h.eq_of_mem hp hq (hpn.trans hqn.symm)

/-- An entry of a collection carries the id that its handle keeps. -/
theorem Filed.idOf? (h : e.Filed kinds) {p : Handle × Option Value} (hp : p ∈ e.document.entryIds) :
    ∃ id, p.2 = some id ∧ e.idOf? p.1 = some id := by
  obtain ⟨c, -, hp⟩ := List.mem_flatMap.mp hp
  exact h.id c p hp

/-- No two entries of all collections together have the same id. -/
theorem Filed.nodup_ids (h : e.Filed kinds) : (e.document.entryIds.map (·.2)).Nodup := by
  refine List.pairwise_map.mpr ((List.pairwise_map.mp h.nodup_handles).imp_of_mem fun hp hq hne hpq => hne ?_)
  obtain ⟨id, hpid, hpi⟩ := h.idOf? hp
  obtain ⟨id', hqid, hqi⟩ := h.idOf? hq
  rw [hpid, hqid, Option.some_inj] at hpq
  exact h.owned.idOf?_injective hpi (hpq ▸ hqi)

/-- An evaluation begins with collections and tables that agree, as both are empty. -/
theorem Filed.start (kinds : Nat → Kind) (supply : IdSupply) {doc : Document} (hd : doc.entryIds = []) :
    Filed kinds { Evaluation.start supply with document := doc } := by
  have ho := Owned.start supply
  have hc : ∀ c, doc.idsIn c = [] := by
    intro c
    exact List.flatMap_eq_nil_iff.mp hd c (by cases c <;> decide)
  refine ⟨⟨ho.met, ho.bound, ho.keyed, ho.inverse, ho.issued⟩, ?_, ?_, ?_⟩
  · intro c
    simp only [hc c]
    exact List.nodup_nil
  · intro c p hp
    simp only [hc c] at hp
    cases hp
  · intro c p hp
    simp only [hc c] at hp
    cases hp

end Evaluation

namespace Evaluating

variable {e : Evaluation}

/-- An evaluator that fills one document, whatever trees it is called with in whatever scopes, passes only states in
which the entries of all collections have pairwise distinct ids, and each entry has the id that the handle it stands
under keeps. The kind of a node never changes; all else about it may. Runs of calls are such passages. -/
theorem entryIds_throughout (kinds : Nat → Kind) {supply : IdSupply} {doc : Document} (hd : doc.entryIds = [])
    (h : Passes (fun mark node => node.AuthorsText ∧ node.kind = kinds mark)
      { Evaluation.start supply with document := doc } e) :
    (e.document.entryIds.map (·.2)).Nodup ∧ (∀ p ∈ e.document.entryIds, p.2.isSome ∧ p.2 = e.idOf? p.1) ∧
    ∀ P calls, (∀ call ∈ calls, ∀ n ∈ call.tree.nodes, P n.1 n.2) → Passes P e (run calls e) := by
  have hf := h.filed (.start kinds supply hd)
  refine ⟨hf.nodup_ids, fun p hp => ?_, fun P calls hP => Passes.refl.run calls hP⟩
  obtain ⟨id, hpid, hpi⟩ := hf.idOf? hp
  rw [hpid, hpi]
  exact ⟨rfl, rfl⟩

/-- After the exchange of ids the scene and the message carry each other's. -/
theorem entryIds_throughout_exchange :
    let e := run exchange (.start ⟨.empty, .counting []⟩)
    Document.empty.entryIds = [] ∧
      Passes (fun mark node => node.AuthorsText ∧ node.kind = if mark = 9 then .message else .scene)
        (.start ⟨.empty, .counting []⟩) e ∧
      e.document.entryIds = [(0, some (.str "b")), (1, some (.str "a"))] ∧ e.idOf? 1 = some (.str "a") := by
  intro e
  have hd : Document.empty.entryIds = [] := rfl
  have hP : ∀ call ∈ exchange, ∀ n ∈ call.tree.nodes,
      n.2.AuthorsText ∧ n.2.kind = if n.1 = 9 then .message else .scene := by
    simp [exchange, entryCall, Tree.nodes, Tree.nodesOf, Node.AuthorsText, Node.requestedId?, Value.IsTextOrNull]
  have h := Passes.refl.run (e := .start ⟨.empty, .counting []⟩)
    (P := fun mark node => node.AuthorsText ∧ node.kind = if mark = 9 then .message else .scene) exchange hP
  have he : e.document.entryIds = [(0, some (.str "b")), (1, some (.str "a"))] := by with_unfolding_all rfl
  have hi := (entryIds_throughout (fun mark => if mark = 9 then .message else .scene) hd h).2.1
  exact ⟨hd, h, he, (hi (1, some (.str "a")) (by rw [he]; simp)).2.symm⟩

end Evaluating

end SceneTree
