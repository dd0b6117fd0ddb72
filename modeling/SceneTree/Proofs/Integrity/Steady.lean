import SceneTree.Proofs.Integrity.Sharing
import SceneTree.Proofs.Sameness

/-!
# What stays as nodes are visited again

While a tree is evaluated nothing about its nodes changes, the ids that are authored on them included. So a node that is
visited again has the handle and the id that it had, its entry is replaced by one with the same id, and no id of an
entry goes away as long as no project begins anew.
-/

namespace SceneTree

namespace Roster

variable {α : Type} {r : Roster Handle α} {n : Handle} {a : α} {p : Handle × α}

/-- The entries after a contribution are the new one and those of the other handles. -/
theorem mem_insert_iff (h : r.tokens.Nodup) :
    p ∈ (r.insert n a).entries ↔ p ∈ r.entries ∧ p.1 ≠ n ∨ p = (n, a) := by
  have hone : r.entries.Pairwise fun x y => (x.1 == n) = true → (y.1 == n) = false :=
    (List.pairwise_map.mp (r.tokens_eq ▸ h)).imp fun hne hx => by
      rw [beq_iff_eq] at hx
      rw [beq_eq_false_iff_ne, ← hx]
      exact hne.symm
  rw [entries_insert, List.mem_append, List.mem_singleton, Ownership.mem_eraseP_iff hone,
    beq_eq_false_iff_ne]

end Roster

namespace Document

variable {doc : Document}

/-- Some entry of a collection has an id. -/
def Has (doc : Document) (c : Collection) (id : Value) : Prop := ∃ n, (n, some id) ∈ doc.idsIn c

/-- The handles in the collection of functions. -/
theorem tokens_functions (doc : Document) : (doc.idsIn .functions).map (·.1) = doc.functions.tokens := by
  simp [idsIn, Roster.tokens_eq]

end Document

/-- Objects are entries of the collection of objects. -/
theorem Kind.collection?_of_isObject {kind : Kind} (h : kind.isObject = true) : kind.collection? = some .objects := by
  cases kind <;> first | rfl | cases h

/-- Named parameters are entries of no collection. -/
theorem Kind.collection?_of_isNamedParam {kind : Kind} (h : kind.isNamedParam = true) : kind.collection? = none := by
  cases kind <;> first | rfl | cases h

section

variable {scope : NodeScope} {n : Handle} {doc doc' : Document} {b : Branch} {out : Option NodeScope}

/-- An effect replaces the entry of its handle in the collection that it goes to, and leaves the other collections
alone; a project empties all of them. -/
theorem Effect.idsIn (h : Effect scope n doc b out doc') (hs : ∀ c, ∀ p ∈ doc.idsIn c, p.2.isSome) (c : Collection) :
    doc'.idsIn c =
      if b.kind = .project then []
      else if b.kind.collection? = some c then refile (doc.idsIn c) n b.id
      else doc.idsIn c := by
  have hplace : ∀ c, ∀ p ∈ doc.addPlace.idsIn c, p.2.isSome := hs
  cases h with
  | project hk =>
    rw [if_pos hk]
    exact Document.idsIn_populate _ _ _
  | scene hk =>
    rw [hk, Document.idsIn_addScene]
    cases c <;> rfl
  | object hk =>
    rw [if_neg (by rintro he; rw [he] at hk; cases hk), Kind.collection?_of_isObject hk,
      Document.idsIn_addObject (hplace .objects), Document.idsIn_addPlace]
    cases c <;> rfl
  | picture hk | sound hk =>
    rw [hk, if_neg (by decide), if_neg (by simp [Kind.collection?])]
    refine Document.idsIn_changeObject _ ?_ c
    exact fun _ => rfl
  | global hk =>
    rw [hk, Document.idsIn_addVariable]
    cases c <;> rfl
  | message hk =>
    rw [hk, Document.idsIn_addMessage]
    cases c <;> rfl
  | function hk =>
    rw [hk, Document.idsIn_addFunction (hplace .functions), Document.idsIn_addPlace]
    cases c <;> rfl
  | localVariable hk =>
    rw [hk, if_neg (by decide), if_neg (by simp [Kind.collection?])]
    refine Document.idsIn_changeFunction _ ?_ c
    exact fun _ => rfl
  | table hk =>
    rw [hk, Document.idsIn_addTable]
    rfl
  | statement hk =>
    rw [hk, Document.idsIn_putItem, Document.idsIn_addPlace]
    rfl
  | script hk =>
    rw [hk, Document.idsIn_putItem, Document.idsIn_addPlace, Document.idsIn_addPlace]
    rfl
  | fragment hk =>
    rw [hk]
    rfl
  | param hk =>
    rw [hk, Document.idsIn_putItem]
    rfl
  | named hk =>
    rw [if_neg (by rintro he; rw [he] at hk; cases hk), Kind.collection?_of_isNamedParam hk,
      Document.idsIn_putItem, Document.idsIn_addReference]
    rfl

/-- Outside of projects an effect takes no id of an entry away, if the handle had the id before. -/
theorem Effect.idsIn_subset (h : Effect scope n doc b out doc') (hs : ∀ c, ∀ p ∈ doc.idsIn c, p.2.isSome)
    (ht : ∀ c, ((doc.idsIn c).map (·.1)).Nodup) (hk : b.kind ≠ .project) {c : Collection}
    (hn : b.kind.collection? = some c → ∀ p ∈ doc.idsIn c, p.1 = n → p.2 = some b.id) :
    ∀ p ∈ doc.idsIn c, p ∈ doc'.idsIn c := by
  intro p hp
  rw [h.idsIn hs, if_neg hk]
  split
  · next hc =>
    rw [mem_refile_iff (ht c)]
    by_cases he : p.1 = n
    · exact .inr (Prod.ext he (hn hc p hp he))
    · exact .inl ⟨hp, he⟩
  · exact hp

/-- The entry of a node has the id of the node. -/
theorem Effect.mem_idsIn_self (h : Effect scope n doc b out doc') (hs : ∀ c, ∀ p ∈ doc.idsIn c, p.2.isSome)
    {c : Collection} (hc : b.kind.collection? = some c) : (n, some b.id) ∈ doc'.idsIn c := by
  rw [h.idsIn hs, if_neg (by rintro he; rw [he] at hc; cases hc), if_pos hc]
  exact List.mem_append_right _ (List.mem_singleton_self _)

/-- An object that is an entry after an effect was one before or is the node itself. -/
theorem Effect.of_mem_objects (h : Effect scope n doc b out doc') {p : Handle × Nat} (hp : p ∈ doc'.objects.entries) :
    p ∈ doc.objects.entries ∨ b.kind.isObject = true ∧ p.1 = n := by
  cases h with
  | project => cases hp
  | object hk =>
    rcases Roster.of_mem_insert hp with hp | rfl
    · exact .inl hp
    · exact .inr ⟨hk, rfl⟩
  | _ => exact .inl hp

/-- Outside of projects an effect leaves the objects of the other handles. -/
theorem Effect.mem_objects (h : Effect scope n doc b out doc') (hk : b.kind ≠ .project) {p : Handle × Nat}
    (hp : p ∈ doc.objects.entries) (hn : b.kind.isObject = true → p.1 ≠ n) : p ∈ doc'.objects.entries := by
  cases h with
  | project hk' => exact absurd hk' hk
  | object hk' => exact Roster.mem_insert_of_ne hp (beq_eq_false_iff_ne.mpr (hn hk'))
  | _ => exact hp

end

namespace Evaluation

variable {shape : Shape} {marks marks' : List Nat} {e e₁ e' : Evaluation}

/-- Two nodes with one handle are the same. -/
theorem Owned.eq_of_handle? (h : e.Owned) {mark mark' : Nat} {n : Handle} (hm : e.handle? mark = some n)
    (hm' : e.handle? mark' = some n) : mark = mark' := by
  rw [handle?_eq_some_iff h.met] at hm hm'
  exact Option.some_inj.mp (hm.symm.trans hm')

/-- All nodes that were met are those of a shape: the collections agree with the tables of ids, and a node on which an
id is authored has no other. -/
structure Faithful (shape : Shape) (e : Evaluation) : Prop where
  filed : e.Filed fun mark => (shape mark).1.kind
  authored : ∀ {mark n id}, e.handle? mark = some n → e.idOf? n = some id →
    ∀ authored, (shape mark).1.requestedId? = some authored → authored.truthy = true → id = authored

/-- What stays while nodes with some marks are visited, none of them a project: handles, the ids of entries, and the
objects of other nodes. -/
structure Retains (marks : List Nat) (e e' : Evaluation) : Prop where
  handle? : ∀ {mark n}, e.handle? mark = some n → e'.handle? mark = some n
  entries : ∀ {c p}, p ∈ e.document.idsIn c → p ∈ e'.document.idsIn c
  objects : ∀ {mark n i}, e.handle? mark = some n → mark ∉ marks → (n, i) ∈ e.document.objects.entries →
    (n, i) ∈ e'.document.objects.entries
  later : e.document.Later e'.document

theorem Retains.refl (marks : List Nat) (e : Evaluation) : e.Retains marks e :=
  ⟨id, id, fun _ _ => id, .refl _⟩

theorem Retains.trans (h : e.Retains marks e₁) (h' : e₁.Retains marks e') : e.Retains marks e' where
  handle? := fun hm => h'.handle? (h.handle? hm)
  entries := fun hp => h'.entries (h.entries hp)
  objects := fun hm hn hp => h'.objects (h.handle? hm) hn (h.objects hm hn hp)
  later := h.later.trans h'.later

/-- More marks. -/
theorem Retains.mono (h : e.Retains marks e') (hm : marks ⊆ marks') : e.Retains marks' e' :=
  ⟨h.handle?, h.entries, fun hmark hn => h.objects hmark fun hmem => hn (hm hmem), h.later⟩

/-- The ids that entries have are those of entries later. -/
theorem Retains.has (h : e.Retains marks e') {c : Collection} {id : Value} (hi : e.document.Has c id) :
    e'.document.Has c id := by
  obtain ⟨n, hn⟩ := hi
  exact ⟨n, h.entries hn⟩

end Evaluation

namespace Evaluating

variable {shape : Shape} {mark : Nat} {literals : List Value} {scope : NodeScope} {e e₁ e' : Evaluation}
  {out : Option NodeScope} {handle : Handle} {authored id : Value} {forest : List (Tree Nat)}

/-- An authored id is given as it is. -/
theorem eq_of_instanceId_eq_ok (h : instanceId handle authored e = (.ok id, e')) (ht : authored.truthy = true) :
    id = authored := by
  rw [instanceId_apply, if_pos ht] at h
  split at h
  · cases h
  · split at h
    · cases h
    · cases h
      rfl

/-- A node of the shape that asks again for an id gets the one that it has. -/
theorem idOf?_request_faithful (h : e.Faithful shape) (hm : e.handle? mark = some handle)
    (hr : request (shape mark).1 handle e = (.ok id, e')) {n : Handle} {id' : Value} (hi : e.idOf? n = some id') :
    e'.idOf? n = some id' := by
  by_cases hn : n = handle
  · subst hn
    rcases request_eq (shape mark).1 n e with ⟨authored, ha, heq⟩ | heq
    · rw [heq] at hr
      cases ht : authored.truthy with
      | false =>
        rw [instanceId_of_kept ht hi] at hr
        cases hr
        exact hi
      | true =>
        rw [idOf?_of_instanceId_eq_ok hr, if_pos rfl, eq_of_instanceId_eq_ok hr ht, h.authored hm hi authored ha ht]
    · rw [heq] at hr
      cases hr
      exact hi
  · rw [idOf?_of_request_eq_ok hr hn]
    exact hi

/-- A node of the shape that is visited with success keeps the id that it has, if it has one, and so do all others. -/
theorem faithful_visit (h : e.Faithful shape) (ha : (shape mark).1.AuthorsText)
    (hv : visit mark (shape mark).1 literals scope e = (.ok out, e₁)) :
    e₁.Faithful shape ∧ (∀ n id, e.idOf? n = some id → e₁.idOf? n = some id) ∧
      e₁.handle? mark = some (e.handleFor mark) ∧
      ∃ id, Effect scope (e.handleFor mark) e.document ⟨id, (shape mark).1, literals.map .literal⟩ out e₁.document ∧
        ((shape mark).1.requestedId?.isSome = true → e₁.idOf? (e.handleFor mark) = some id) := by
  have howned := h.filed.owned
  have hfiled := filed_visit h.filed ha rfl literals scope
  rw [hv] at hfiled
  obtain ⟨id, e₀, hr, heffect, he⟩ := effect_of_visit hv
  have henter := Evaluation.handle?_enter howned mark (shape mark).1
  have hids : ∀ n, e₁.idOf? n = e₀.idOf? n := fun n => by rw [he]; rfl
  have hmet : e₁.met = (e.enter mark (shape mark).1).met := by
    have := met_request (shape mark).1 (e.handleFor mark) (e.enter mark (shape mark).1)
    rw [hr] at this
    rw [he]
    exact this
  have hprefix := met_visit mark (shape mark).1 literals scope e
  rw [hv] at hprefix
  have hentered : (e.enter mark (shape mark).1).Faithful shape := by
    refine ⟨h.filed.enter mark (shape mark).1, ?_⟩
    intro mark' n id' hm hi
    have hlt := howned.bound hi
    rw [Evaluation.handle?_eq_some_iff (howned.enter mark (shape mark).1).met] at hm
    obtain ⟨rest, hrest⟩ := Evaluation.met_enter e mark (shape mark).1
    rw [← hrest, List.getElem?_append_left hlt] at hm
    exact h.authored ((Evaluation.handle?_eq_some_iff howned.met).mpr hm) hi
  have hkept : ∀ n id', e.idOf? n = some id' → e₁.idOf? n = some id' := by
    intro n id' hi
    rw [hids]
    exact idOf?_request_faithful hentered henter hr hi
  have hself : ∀ authored, (shape mark).1.requestedId? = some authored →
      e₁.idOf? (e.handleFor mark) = some id ∧ (authored.truthy = true → id = authored) := by
    intro authored hreq
    rw [request, hreq] at hr
    rw [hids, idOf?_of_instanceId_eq_ok hr, if_pos rfl]
    exact ⟨rfl, eq_of_instanceId_eq_ok hr⟩
  have hhandle : ∀ m, e₁.handle? m = (e.enter mark (shape mark).1).handle? m := by
    intro m
    unfold Evaluation.handle?
    rw [hmet]
  refine ⟨⟨hfiled, ?_⟩, hkept, (hhandle mark).trans henter, id, heffect, ?_⟩
  · intro mark' n id' hm hi authored hreq ht
    have hm' := (hhandle mark').symm.trans hm
    by_cases hn : n = e.handleFor mark
    · -- the node itself, which has just been granted its id
      subst hn
      have hmark : mark' = mark := by
        rw [Evaluation.handle?_eq_some_iff (howned.enter mark (shape mark).1).met] at hm' henter
        exact Option.some_inj.mp (hm'.symm.trans henter)
      subst hmark
      obtain ⟨hgranted, htruthy⟩ := hself authored hreq
      rw [hi, Option.some_inj] at hgranted
      rw [hgranted]
      exact htruthy ht
    · rw [hids, idOf?_of_request_eq_ok hr hn] at hi
      exact hentered.authored hm' hi authored hreq ht
  · intro hreq
    obtain ⟨authored, hreq⟩ := Option.isSome_iff_exists.mp hreq
    exact (hself authored hreq).1

/-- A visit with success that is not one of a project takes nothing from other nodes. -/
theorem retains_visit (h : e.Faithful shape) (ha : (shape mark).1.AuthorsText)
    (hk : (shape mark).1.kind ≠ .project) (hv : visit mark (shape mark).1 literals scope e = (.ok out, e₁)) :
    e.Retains [mark] e₁ := by
  obtain ⟨h₁, hkept, -, id, heffect, hself⟩ := faithful_visit h ha hv
  have hprefix := met_visit mark (shape mark).1 literals scope e
  rw [hv] at hprefix
  refine ⟨Evaluation.handle?_mono h₁.filed.owned.met hprefix, ?_, ?_, heffect.later⟩
  · intro c p hp
    refine heffect.idsIn_subset h.filed.isSome h.filed.tokens hk (fun hc p hp hn => ?_) p hp
    obtain ⟨id', hid', hi⟩ := h.filed.id c p hp
    have hgranted := hself (by rw [Node.requestedId?_of_collection? hc]; rfl)
    rw [hn] at hi
    rw [hid', ← hkept _ _ hi]
    exact hgranted
  · intro mark' n i hm hmark hp
    refine heffect.mem_objects hk hp fun _ he => hmark ?_
    rw [Evaluation.eq_of_handleFor_eq h.filed.owned.met he.symm hm]
    exact List.mem_singleton_self _

/-- An evaluation with success of nodes of the shape keeps their ids. -/
theorem Evaluates.faithful (h : Evaluates scope forest e e') (hs : Tree.AllFrom shape forest)
    (ha : ∀ mark ∈ Tree.marksOf forest, (shape mark).1.AuthorsText) (hf : e.Faithful shape) : e'.Faithful shape :=
  h.preserves hs (fun mark hm _ _ _ _ hv hI => (faithful_visit hI (ha mark hm) hv).1) hf

/-- An evaluation with success of nodes of the shape that are no projects takes nothing from other nodes. -/
theorem Evaluates.retains (h : Evaluates scope forest e e') (hs : Tree.AllFrom shape forest)
    (ha : ∀ mark ∈ Tree.marksOf forest, (shape mark).1.AuthorsText)
    (hk : ∀ mark ∈ Tree.marksOf forest, (shape mark).1.kind ≠ .project) (hf : e.Faithful shape) :
    e'.Faithful shape ∧ e.Retains (Tree.marksOf forest) e' := by
  refine h.preserves (I := fun e' => e'.Faithful shape ∧ e.Retains (Tree.marksOf forest) e') hs ?_ ⟨hf, .refl _ e⟩
  rintro mark hm scope e₁ out e₂ hv ⟨h₁, hr⟩
  have hstep := retains_visit h₁ (ha mark hm) (hk mark hm) hv
  exact ⟨(faithful_visit h₁ (ha mark hm) hv).1, hr.trans (hstep.mono (List.cons_subset.mpr ⟨hm, List.nil_subset _⟩))⟩

end Evaluating

/-- The pictures of an object have the ids that their handles keep, and the one that it shows is its own. -/
structure ObjectEntry.ShowsOwn (idOf? : Handle → Option Value) (object : ObjectEntry) : Prop where
  ids : ∀ p ∈ object.pictures.entries, idOf? p.1 = some p.2.id
  own : object.selectedPicture = .null ∨ ∃ p ∈ object.pictures.entries, p.2.id = object.selectedPicture

namespace ObjectEntry.ShowsOwn

variable {object : ObjectEntry} {idOf? idOf?' : Handle → Option Value}

/-- Handles may take more ids. -/
theorem mono (h : object.ShowsOwn idOf?) (hids : ∀ n id, idOf? n = some id → idOf?' n = some id) :
    object.ShowsOwn idOf?' :=
  ⟨fun p hp => hids _ _ (h.ids p hp), h.own⟩

/-- A picture that comes, or comes again, with the id that its handle keeps. -/
theorem addPicture (h : object.ShowsOwn idOf?) {n : Handle} {entry : PictureEntry} (hn : idOf? n = some entry.id)
    (selected : Bool) : (object.addPicture n entry selected).ShowsOwn idOf? := by
  refine ⟨?_, ?_⟩
  · intro p hp
    rcases Roster.of_mem_insert hp with hp | rfl
    · exact h.ids p hp
    · exact hn
  · have hnew := object.pictures.mem_insert_self n entry
    cases selected with
    | true => exact .inr ⟨_, hnew, rfl⟩
    | false =>
      refine h.own.imp_right ?_
      rintro ⟨p, hp, hid⟩
      by_cases he : p.1 = n
      · -- the picture that was shown has come again
        have hsame := h.ids p hp
        rw [he, hn, Option.some_inj] at hsame
        exact ⟨_, hnew, hsame.trans hid⟩
      · exact ⟨p, Roster.mem_insert_of_ne hp (beq_eq_false_iff_ne.mpr he), hid⟩

end ObjectEntry.ShowsOwn

namespace Evaluating

variable {shape : Shape} {mark : Nat} {literals : List Value} {scope : NodeScope} {e e₁ e' : Evaluation}
  {out : Option NodeScope} {forest : List (Tree Nat)}

/-- Objects show pictures of their own also after a visit. -/
theorem showsOwn_visit (h : e.Faithful shape) (ha : (shape mark).1.AuthorsText)
    (hv : visit mark (shape mark).1 literals scope e = (.ok out, e₁))
    (ho : e.document.objectCells.All (ObjectEntry.ShowsOwn e.idOf?)) :
    e₁.document.objectCells.All (ObjectEntry.ShowsOwn e₁.idOf?) := by
  obtain ⟨-, hkept, -, granted, heffect, hself⟩ := faithful_visit h ha hv
  have hold : e.document.objectCells.All (ObjectEntry.ShowsOwn e₁.idOf?) := ho.imp fun _ hobject => hobject.mono hkept
  generalize e₁.document = doc₁ at heffect
  cases heffect with
  | object => exact hold.add ⟨List.forall_mem_nil _, .inl rfl⟩
  | sound => exact hold.modify _ (fun _ => id) fun _ hobject => ⟨hobject.ids, hobject.own⟩
  | picture hk =>
    have hgranted : e₁.idOf? (e.handleFor mark) = some granted := by
      have hk' : (shape mark).1.kind = .picture := hk
      refine hself ?_
      unfold Node.requestedId?
      rw [hk']
      rfl
    exact hold.modify _ (fun _ => id) fun _ hobject => hobject.addPicture hgranted _
  | _ => exact hold

/-- After an evaluation with success every object that shows a picture shows one of its own. -/
theorem Evaluates.showsOwn (h : Evaluates scope forest e e') (hs : Tree.AllFrom shape forest)
    (ha : ∀ mark ∈ Tree.marksOf forest, (shape mark).1.AuthorsText) (hf : e.Faithful shape)
    (ho : e.document.objectCells.All (ObjectEntry.ShowsOwn e.idOf?)) :
    e'.document.objectCells.All (ObjectEntry.ShowsOwn e'.idOf?) := by
  refine (h.preserves (I := fun e => e.Faithful shape ∧ e.document.objectCells.All (ObjectEntry.ShowsOwn e.idOf?)) hs
    ?_ ⟨hf, ho⟩).2
  rintro mark hm scope e out e₁ hv ⟨hf, ho⟩
  exact ⟨(faithful_visit hf (ha mark hm) hv).1, showsOwn_visit hf (ha mark hm) hv ho⟩

end Evaluating

/-- Where every object that shows a picture shows one of its own, no picture is missed. -/
theorem Document.checkSelectedPictures_eq_ok {doc : Document}
    (h : ∀ object ∈ doc.objectEntries, object.selectedPicture = .null ∨
      ∃ picture ∈ object.pictures.values, picture.id = object.selectedPicture ∧ ∃ s, picture.id = .str s) :
    doc.checkSelectedPictures = .ok () := by
  unfold checkSelectedPictures
  generalize doc.objectEntries = objects at h
  induction objects with
  | nil => rfl
  | cons object rest ih =>
    obtain ⟨hself, hrest⟩ := List.forall_mem_cons.mp h
    refine Outcome.bind_eq_ok_iff.mpr ⟨(), if_pos ?_, ih hrest⟩
    rw [Bool.or_eq_true, List.any_eq_true]
    rcases hself with hnull | ⟨picture, hp, hid, s, hs⟩
    · exact .inl (by rw [hnull]; rfl)
    · refine .inr ⟨picture, hp, ?_⟩
      rw [← hid, hs]
      exact Value.same_self _

end SceneTree
