import SceneTree.Proofs.Containment.Acceptance
import SceneTree.Proofs.Integrity.Projects
import SceneTree.Proofs.Integrity.Readings

/-!
# Compiled documents are intact

Whatever a compiled document says about one of its entries, that entry is there: scenes of objects, owners of variables,
pictures that are shown, and what the parameters of scripts name. This holds for all trees, those with nodes that stand
in several places included.
-/

namespace SceneTree

/-- What a name finds is one of its candidates. -/
theorem Candidates.mem_of_resolve {cs : Candidates} {kind : String} {name id : Value}
    (h : cs.resolve kind name = .ok id) : ∃ p ∈ cs, p.1 = id := by
  unfold resolve at h
  cases hf : cs.firstNamed? name with
  | none =>
    rw [hf] at h
    cases h
  | some found =>
    rw [hf] at h
    cases h
    obtain ⟨p, hp, hid⟩ := Option.map_eq_some_iff.mp hf
    exact ⟨p, List.mem_of_find?_eq_some hp, hid⟩

namespace Tree

variable {tree : Tree Nat} {shape : Shape}

theorem Given.all (h : tree.Given) : AllGiven [tree] := by
  rw [AllGiven, AllGiven]
  exact ⟨h, trivial⟩

/-- The nodes of a tree are those of its shape. -/
theorem AllFrom.authorsText (hs : AllFrom shape [tree]) (ha : ∀ n ∈ tree.nodes, n.2.AuthorsText) :
    ∀ m ∈ marksOf [tree], (shape m).1.AuthorsText := by
  intro m hm
  obtain ⟨n, hn, rfl⟩ := List.mem_map.mp hm
  have hnodes : nodesOf [tree] = tree.nodes := List.append_nil _
  rw [← hs.eq_of_mem hn]
  exact ha n (hnodes ▸ hn)

end Tree

namespace Document

variable {doc : Document} {id : Value}

/-- The ids of all that a parameter can name: the variables, and the objects with their pictures and sounds. -/
def namedIds (doc : Document) : List Value :=
  doc.globals.values.map (·.id) ++ doc.objectEntries.flatMap ObjectEntry.ids

/-- Every id by which a document links something to an entry is the id of such an entry. -/
structure Intact (doc : Document) : Prop where
  scenes : ∀ object ∈ doc.objectEntries, object.scene ∈ doc.scenes.values.map (·.id)
  owners : ∀ entry ∈ doc.globals.values, entry.object = .null ∨ entry.object ∈ doc.objectEntries.map (·.id)
  pictures : ∀ object ∈ doc.objectEntries,
    object.selectedPicture = .null ∨ object.selectedPicture ∈ object.pictures.values.map (·.id)
  references : ∀ place ∈ doc.outerPlaces, ∀ depth index, .reference index ∈ doc.itemsWithin depth place →
    ∃ id ∈ doc.namedIds, ∀ readings, (Value.encode (doc.referenceValue index) readings).1 = .ok id

theorem mem_objectEntries_iff {object : ObjectEntry} :
    object ∈ doc.objectEntries ↔ ∃ n i, (n, i) ∈ doc.objects.entries ∧ doc.objectCells.get? i = some object := by
  unfold objectEntries
  simp only [List.mem_filterMap, Roster.mem_values, Prod.exists, exists_eq_right]
  exact ⟨fun ⟨i, ⟨n, hp⟩, ho⟩ => ⟨n, i, hp, ho⟩, fun ⟨n, i, hp, ho⟩ => ⟨i, ⟨n, hp⟩, ho⟩⟩

theorem mem_functionEntries_iff {function : FunctionEntry} :
    function ∈ doc.functionEntries ↔
      ∃ n i, (n, i) ∈ doc.functions.entries ∧ doc.functionCells.get? i = some function := by
  unfold functionEntries
  simp only [List.mem_filterMap, Roster.mem_values, Prod.exists, exists_eq_right]
  exact ⟨fun ⟨i, ⟨n, hp⟩, hf⟩ => ⟨n, i, hp, hf⟩, fun ⟨n, i, hp, hf⟩ => ⟨i, ⟨n, hp⟩, hf⟩⟩

/-- An id that a scene has stands among those of the scenes. -/
theorem Has.mem_scenes (h : doc.Has .scenes id) : id ∈ doc.scenes.values.map (·.id) := by
  obtain ⟨n, h⟩ := h
  obtain ⟨p, hp, he⟩ := List.mem_map.mp h
  exact List.mem_map.mpr ⟨p.2, Roster.mem_values_of_mem hp, Option.some_inj.mp (Prod.mk.inj he).2⟩

/-- An id that an object has stands among those of the objects. -/
theorem Has.mem_objects (h : doc.Has .objects id) : id ∈ doc.objectEntries.map (·.id) := by
  obtain ⟨n, h⟩ := h
  obtain ⟨p, hp, he⟩ := List.mem_map.mp h
  obtain ⟨object, ho, hid⟩ := Option.map_eq_some_iff.mp (Prod.mk.inj he).2
  exact List.mem_map.mpr ⟨object, mem_objectEntries_iff.mpr ⟨p.1, p.2, hp, ho⟩, hid⟩

/-- The candidates of a reference are entries, if the object that it looks in is one. -/
theorem mem_namedIds_of_candidates {target : Target}
    (h : ∀ i, target.object? = some i → ∃ n, (n, i) ∈ doc.objects.entries) {p : Value × Value}
    (hp : p ∈ doc.candidates target) : p.1 ∈ doc.namedIds := by
  have hobject : ∀ object ∈ doc.objectEntries, ∀ id ∈ object.ids, id ∈ doc.namedIds := fun object ho id hid =>
    List.mem_append_right _ (List.mem_flatMap.mpr ⟨object, ho, hid⟩)
  have hinside : ∀ (f : ObjectEntry → Candidates) i, target.object? = some i →
      p ∈ ((doc.objectCells.get? i).map f).getD [] → ∃ object ∈ doc.objectEntries, p ∈ f object := by
    intro f i hi hp
    obtain ⟨n, hentry⟩ := h i hi
    cases ho : doc.objectCells.get? i with
    | none =>
      rw [ho] at hp
      cases hp
    | some object =>
      rw [ho] at hp
      exact ⟨object, mem_objectEntries_iff.mpr ⟨n, i, hentry, ho⟩, hp⟩
  cases target with
  | globals =>
    obtain ⟨entry, he, rfl⟩ := List.mem_map.mp hp
    exact List.mem_append_left _ (List.mem_map_of_mem he)
  | objects =>
    obtain ⟨object, ho, rfl⟩ := List.mem_map.mp hp
    exact hobject object ho _ List.mem_cons_self
  | pictures i =>
    obtain ⟨object, ho, hp⟩ := hinside _ i rfl hp
    obtain ⟨picture, hpicture, rfl⟩ := List.mem_map.mp hp
    exact hobject object ho _ (List.mem_cons_of_mem _ (List.mem_append_left _ (List.mem_map_of_mem hpicture)))
  | sounds i =>
    obtain ⟨object, ho, hp⟩ := hinside _ i rfl hp
    obtain ⟨sound, hsound, rfl⟩ := List.mem_map.mp hp
    exact hobject object ho _ (List.mem_cons_of_mem _ (List.mem_append_right _ (List.mem_map_of_mem hsound)))

/-- In a document in which nothing was read, a reference that can be encoded is the same id ever after: one of those
that it looks among. -/
theorem Unused.encode_referenceValue_keep (h : doc.Unused) {readings : Readings} (hr : doc.Right readings) {index : Nat}
    {target : Target} {r : Reference} (hget : doc.references.get? index = some (target, r))
    (he : (doc.referenceValue index).Encodable) :
    ∃ p ∈ doc.candidates target,
      ∀ later, (Value.encode ((doc.keep readings).referenceValue index) later).1 = .ok p.1 := by
  obtain ⟨id, before, after, hid⟩ := he
  have hfound := h.unread.honest.encode_referenceValue hget before
  rw [hid] at hfound
  obtain ⟨p, hp, rfl⟩ := Candidates.mem_of_resolve hfound.symm
  obtain ⟨⟨target', r'⟩, hget', hsame⟩ := doc.references_keep readings index (target, r) hget
  obtain ⟨rfl, hkind⟩ := Prod.mk.inj hsame
  obtain ⟨hkind, hname⟩ := Prod.mk.inj hkind
  refine ⟨p, hp, fun later => ?_⟩
  rw [(h.unread.honest.keep hr).encode_referenceValue hget', hkind, hname]
  exact hfound.symm

end Document

namespace Evaluation

open Document

variable {shape : Shape} {homes : List (Option Nat)} {e : Evaluation}

/-- The place of the scripts of an object, or of the content of a function, belongs to an object that is an entry, or to
none. -/
theorem Integral.object_of_outerPlaces (h : e.Integral shape homes fun _ => False) {place i : Nat}
    (hp : place ∈ e.document.outerPlaces) (hhome : homes[place]? = some (some i)) :
    ∃ n, (n, i) ∈ e.document.objects.entries := by
  rcases List.mem_append.mp hp with hp | hp
  · obtain ⟨object, ho, rfl⟩ := List.mem_map.mp hp
    obtain ⟨n, j, hentry, hcell⟩ := mem_objectEntries_iff.mp ho
    obtain rfl : i = j := by simpa using hhome.symm.trans (h.homed.blocks hcell)
    exact ⟨n, hentry⟩
  · obtain ⟨function, hf, rfl⟩ := List.mem_map.mp hp
    obtain ⟨n, j, hentry, hcell⟩ := mem_functionEntries_iff.mp hf
    obtain ⟨mark, hm, -, -⟩ := h.faithful.of_mem_functions hentry
    obtain ⟨-, m, -, hmem, -⟩ := h.current hentry hm id hcell hhome
    exact ⟨m, hmem⟩

/-- A document with all links is intact, and remains so when it keeps what a layout of it has read. -/
theorem Integral.intact (h : e.Integral shape homes fun _ => False)
    (ho : e.document.objectCells.All (ObjectEntry.ShowsOwn e.idOf?)) (hu : e.document.Unused) {layout : Value}
    {readings : Readings} (hl : e.document.layout [] = (.ok layout, readings)) :
    (e.document.keep readings).Intact where
  scenes := by
    intro object hobject
    obtain ⟨n, i, hentry, hcell⟩ := mem_objectEntries_iff.mp hobject
    exact (h.linked.scenes hentry hcell).mem_scenes
  owners := by
    intro entry hentry
    obtain ⟨p, hp, rfl⟩ := Roster.mem_values.mp hentry
    exact (h.linked.owners hp).imp_right Has.mem_objects
  pictures := by
    intro object hobject
    obtain ⟨n, i, -, hcell⟩ := mem_objectEntries_iff.mp hobject
    refine (ho i object hcell).own.imp_right ?_
    rintro ⟨p, hp, hid⟩
    exact List.mem_map.mpr ⟨p.2, Roster.mem_values_of_mem hp, hid⟩
  references := by
    intro place hplace depth index hi
    have hplace : place ∈ e.document.outerPlaces := hplace
    rw [itemsWithin_keep] at hi
    obtain ⟨target, r, hget, hhome⟩ := h.homed.of_mem_itemsWithin hi
    have hright : e.document.Right readings := by
      have hkeeps := layout_keeps hu [] (.nil _)
      rw [hl] at hkeeps
      exact hkeeps
    -- the layout has read it, however deep it was found
    have hdeep : .reference index ∈ e.document.itemsWithin e.document.parts.size place :=
      h.homed.itemsWithin_subset (h.homed.size ▸ Nat.le_add_left _ _) _ hi
    have hencodable := encodable_of_mem_itemsWithin (encodable_of_layout_eq_ok hl place hplace).slot hdeep
    obtain ⟨p, hp, hid⟩ := hu.encode_referenceValue_keep hright hget hencodable
    exact ⟨p.1, mem_namedIds_of_candidates (fun i hi => h.object_of_outerPlaces hplace (hhome i hi)) hp, hid⟩

end Evaluation

namespace Evaluating

open Document

variable {shape : Shape} {tree : Tree Nat} {supply : IdSupply} {notice : Notice} {e : Evaluation}

/-- An evaluation that has just begun has all links. -/
theorem integral_begun (shape : Shape) (supply : IdSupply) (notice : Notice) :
    (begun supply notice).Integral shape [] fun _ => False where
  faithful :=
    have hempty : Document.empty.entryIds = [] := rfl
    have hstart := Evaluation.Filed.start (fun mark => (shape mark).1.kind) supply hempty
    { filed := ⟨(ready_begun supply notice).owned, hstart.tokens, hstart.kind, hstart.id⟩
      authored := fun hm => by cases hm }
  linked := ⟨fun hp => absurd hp List.not_mem_nil, fun hp => absurd hp List.not_mem_nil⟩
  shown := fun hm => by cases hm
  homed := .empty
  current := fun hp => absurd hp List.not_mem_nil

/-- An evaluation with success into a document with one project keeps the links, and all nodes have their entries. -/
theorem integral_of_evaluate (hs : Tree.AllFrom shape [tree]) (ha : ∀ m ∈ Tree.marksOf [tree], (shape m).1.AuthorsText)
    (h : evaluate tree .root (begun supply notice) = (.ok (), e)) (hone : e.document.populatedBy.length = 1) :
    (∃ homes, e.Integral shape homes fun _ => False) ∧ ∀ m ∈ Tree.marksOf [tree], e.Lists shape m := by
  have hbegun := integral_begun shape supply notice
  have hevaluates := evaluates_of_evaluate tree h
  obtain ⟨p, hp⟩ : ∃ p, ∀ m ∈ Tree.marksOf [tree], (shape m).1.kind = .project → m = p := by
    by_cases hex : ∃ p ∈ Tree.marksOf [tree], (shape p).1.kind = .project
    · obtain ⟨p, hp, hk⟩ := hex
      exact ⟨p, fun m hm hkm => hevaluates.one_project hs ha hbegun.faithful hone hm hkm hp hk⟩
    · exact ⟨0, fun m hm hkm => absurd ⟨m, hm, hkm⟩ hex⟩
  obtain ⟨⟨homes, hintegral⟩, hlists⟩ := hevaluates.integral_bare NodeScope.bare_root hs ha hp hbegun
  exact ⟨⟨[] ++ homes, hintegral⟩, hlists⟩

/-- Of an evaluation with success the document is one whose objects show pictures of their own. -/
theorem showsOwn_of_evaluate (hs : Tree.AllFrom shape [tree]) (ha : ∀ m ∈ Tree.marksOf [tree], (shape m).1.AuthorsText)
    (h : evaluate tree .root (begun supply notice) = (.ok (), e)) :
    e.Faithful shape ∧ e.document.objectCells.All (ObjectEntry.ShowsOwn e.idOf?) := by
  have hbegun := (integral_begun shape supply notice).faithful
  have hevaluates := evaluates_of_evaluate tree h
  exact ⟨hevaluates.faithful hs ha hbegun, hevaluates.showsOwn hs ha hbegun (.empty _)⟩

/-- After an evaluation with success no picture is missed that an object shows. -/
theorem checkSelectedPictures_of_evaluate (hs : Tree.AllFrom shape [tree])
    (ha : ∀ m ∈ Tree.marksOf [tree], (shape m).1.AuthorsText)
    (h : evaluate tree .root (begun supply notice) = (.ok (), e)) : e.document.checkSelectedPictures = .ok () := by
  obtain ⟨hfaithful, hshows⟩ := showsOwn_of_evaluate hs ha h
  refine checkSelectedPictures_eq_ok fun object hobject => ?_
  obtain ⟨n, i, -, hcell⟩ := mem_objectEntries_iff.mp hobject
  have hobject := hshows i object hcell
  refine hobject.own.imp_right ?_
  rintro ⟨p, hp, hid⟩
  exact ⟨p.2, Roster.mem_values_of_mem hp, hid, hfaithful.filed.owned.text (hobject.ids p hp)⟩

/-- A tree, whatever nodes are shared in it, is never refused for a picture that an object shows. If it is compiled, the
document is intact, and it shows one of its objects if any object of the tree is selected. -/
theorem compileTree_intact (supply : IdSupply) (hs : Tree.AllFrom shape [tree]) (hg : tree.Given)
    (ha : ∀ n ∈ tree.nodes, n.2.AuthorsText) :
    (∀ notice e, evaluate tree .root (begun supply notice) = (.ok (), e) →
      e.document.checkSelectedPictures = .ok ()) ∧
    ∀ doc e, compileTree tree supply = (.ok doc, e) → doc.Intact ∧
      ((∃ n ∈ tree.nodes, n.2.kind.isObject = true ∧ (n.2.get .selected).truthy = true) →
        ∃ id ∈ doc.objectEntries.map (·.id), Entries.get? doc.head.interface (.str "object") = some id) := by
  have hnodes : Tree.nodesOf [tree] = tree.nodes := List.append_nil _
  have ha := hs.authorsText ha
  refine ⟨fun notice e h => checkSelectedPictures_of_evaluate hs ha h, fun doc e h => ?_⟩
  obtain ⟨notice, e₁, layout, readings, he, -, hone, hl, rfl⟩ := evaluate_of_compileTree h
  obtain ⟨⟨homes, hintegral⟩, hlists⟩ := integral_of_evaluate hs ha he hone
  have hunused := (evaluates_of_evaluate tree he).unused hs hg.all .empty
  refine ⟨hintegral.intact (showsOwn_of_evaluate hs ha he).2 hunused hl, ?_⟩
  rintro ⟨n, hn, hk, hselected⟩
  have hn : n ∈ Tree.nodesOf [tree] := hnodes.symm ▸ hn
  have hsame := hs.eq_of_mem hn
  obtain ⟨handle, id, hm, hentry⟩ := hlists n.1 (List.mem_map_of_mem hn) .objects
    (hsame ▸ Kind.collection?_of_isObject hk)
  obtain ⟨q, hq, he⟩ := List.mem_map.mp hentry
  obtain ⟨shown, hshown, hhas⟩ := hintegral.shown hm (i := q.2) ((Prod.mk.inj he).1 ▸ hq) (hsame ▸ hselected)
  exact ⟨shown, hhas.mem_objects, hshown⟩

/-- A sprite, in which a function names a picture of the sprite, as the child of two scenes. -/
def sharedSprite : Forest :=
  ⟨#[(plainNode .project [(.name, .str "p")], [.node 1, .node 2]),
    (plainNode .scene [(.name, .str "s")], [.node 3]),
    (plainNode .scene [(.name, .str "t")], [.node 3]),
    (plainNode .sprite [(.name, .str "o"), (.selected, .bool true)], [.node 4, .node 5]),
    (plainNode .picture [(.name, .str "i"), (.selected, .bool true)], []),
    (plainNode .function [], [.node 6]),
    (plainNode .statement [], [.node 7]),
    (plainNode .script [(.type, .str "t")], [.node 8]),
    (plainNode .pictureParam [(.name, .str "i")], [])], []⟩

/-- The sprite with its picture and its function. -/
def spriteNaming : Tree Nat :=
  .node 3 (plainNode .sprite [(.name, .str "o"), (.selected, .bool true)])
    [.node 4 (plainNode .picture [(.name, .str "i"), (.selected, .bool true)]) [],
      .node 5 (plainNode .function [])
        [.node 6 (plainNode .statement [])
          [.node 7 (plainNode .script [(.type, .str "t")]) [.node 8 (plainNode .pictureParam [(.name, .str "i")]) []]]]]

/-- The sprite in both scenes. -/
def twoScenes : Tree Nat :=
  .node 0 (plainNode .project [(.name, .str "p")])
    [.node 1 (plainNode .scene [(.name, .str "s")]) [spriteNaming],
      .node 2 (plainNode .scene [(.name, .str "t")]) [spriteNaming]]

theorem given_twoScenes : twoScenes.Given := by
  simp only [twoScenes, spriteNaming, Tree.Given, Tree.AllGiven, and_true]
  refine ⟨?_, ⟨?_, ?_, ?_, ?_, ?_, ?_, ?_⟩, ?_, ?_, ?_, ?_, ?_, ?_, ?_⟩ <;> exact fun field => by cases field <;> rfl

/-- Nothing that is not there is left behind when the sprite has been evaluated twice. -/
theorem compileTree_intact_sharedSprite :
    sharedSprite.tree? (.node 0) = some twoScenes ∧
    ∃ doc e, compileTree twoScenes ⟨.empty, .counting []⟩ = (.ok doc, e) ∧ doc.Intact ∧
      ∃ id ∈ doc.objectEntries.map (·.id), Entries.get? doc.head.interface (.str "object") = some id := by
  have htree : sharedSprite.tree? (.node 0) = some twoScenes := rfl
  have ha : ∀ n ∈ twoScenes.nodes, n.2.AuthorsText := by decide +kernel
  have hselected : ∃ n ∈ twoScenes.nodes, n.2.kind.isObject = true ∧ (n.2.get .selected).truthy = true :=
    ⟨_, .tail _ (.tail _ (.head _)), rfl, rfl⟩
  have hok : (compileTree twoScenes ⟨.empty, .counting []⟩).1.isOk = true := by decide +kernel
  refine ⟨htree, ?_⟩
  rcases hc : compileTree twoScenes ⟨.empty, .counting []⟩ with ⟨_ | doc, e⟩
  · rw [hc] at hok
    cases hok
  · obtain ⟨hintact, hshown⟩ :=
      (compileTree_intact ⟨.empty, .counting []⟩ (Forest.allFrom_of_tree? htree) given_twoScenes ha).2 doc e hc
    exact ⟨doc, e, rfl, hintact, hshown hselected⟩

end Evaluating

end SceneTree
