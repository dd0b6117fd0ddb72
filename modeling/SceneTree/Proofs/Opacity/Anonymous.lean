import SceneTree.Proofs.Integrity.Intact
import SceneTree.Proofs.Opacity.Holders
import SceneTree.Proofs.Opacity.Noting

/-!
# Documents do not depend on the ids that are drawn

An id says nothing but which node holds it. Whatever ids were given out before and whatever is drawn, if a tree is
compiled twice, then the two documents are the same as soon as every id that comes from a node is replaced by the handle
that holds it; and the handles are those of the same nodes.
-/

namespace SceneTree

/-- Whether some object of a tree is selected. -/
def Tree.selectsObject {ι : Type} (tree : Tree ι) : Bool :=
  tree.nodes.any fun n => n.2.kind.isObject && (n.2.get .selected).truthy

/-- What a project says of its interface, under a veil: if it shows an object, that object. -/
def Veil.onInterface (v : Veil) (shows : Bool) (interface : List (Value × Value)) : List (Value × Value) :=
  if shows then
    Entries.put interface (.str "object") (v.onId ((Entries.get? interface (.str "object")).getD .null))
  else interface

/-- A reference under a veil: it keeps the name that it looks for. -/
def Veil.onReference (v : Veil) : Target × Reference → Target × Reference
  | (target, r) => (target, { r with found := r.found.map v.onId })

/-- A document whose ids are all under a veil, wherever they stand: in the entries, in the scripts, in what references
have found, and in the interface if it shows an object of the document. -/
def Document.anonymous (v : Veil) (shows : Bool) (doc : Document) : Document :=
  { doc.veiled v with
    head := { doc.head with interface := v.onInterface shows doc.head.interface }
    references := doc.references.map v.onReference }

/-- Things are the same if those with the same number are. -/
theorem Cells.ext_get? {α : Type} {cells cells' : Cells α} (h : ∀ i, cells.get? i = cells'.get? i) :
    cells = cells' := by
  obtain ⟨contents⟩ := cells
  obtain ⟨contents'⟩ := cells'
  exact congrArg Cells.mk (Array.ext_getElem? fun i => h i)

namespace Document

variable {selects : Handle → Prop} {v v' : Veil} {doc doc' : Document} {readings readings' : Readings}

/-- Interfaces that are alike are the same under the veils. -/
theorem InterfacesAlike.onInterface_eq (h : doc.InterfacesAlike selects v v' doc') {shows : Bool}
    (hshows : shows = true → ∃ p ∈ doc.objects.entries, selects p.1) (hnone : shows = false → ∀ n, ¬ selects n) :
    v.onInterface shows doc.head.interface = v'.onInterface shows doc'.head.interface := by
  cases shows with
  | false =>
    rcases h with ⟨h, -⟩ | ⟨⟨n, hn⟩, -⟩
    · exact h
    · exact absurd hn (hnone rfl n)
  | true =>
    obtain ⟨p, hp, hselects⟩ := hshows rfl
    rcases h with ⟨-, h⟩ | ⟨-, entries, id, id', hi, hi', hid⟩
    · exact absurd hselects (h p hp)
    · unfold Veil.onInterface
      rw [if_pos rfl, if_pos rfl, hi, hi', Entries.get?_put_self, Entries.get?_put_self, Entries.put_put,
        Entries.put_put, Option.getD_some, Option.getD_some, hid]

/-- Documents that are the same under veils keep the same of their layouts. -/
theorem references_keep_eq (h : doc.veiled v = doc'.veiled v') (hu : doc.Unused) (hu' : doc'.Unused)
    {layout layout' : Value} (hl : doc.layout [] = (.ok layout, readings))
    (hl' : doc'.layout [] = (.ok layout', readings')) :
    (doc.keep readings).references.map v.onReference = (doc'.keep readings').references.map v'.onReference := by
  have hright : ∀ {doc : Document} {layout readings}, doc.Unused → doc.layout [] = (.ok layout, readings) →
      doc.Right readings := by
    intro doc layout readings hu hl
    have hkeeps := layout_keeps hu [] (.nil _)
    rw [hl] at hkeeps
    exact hkeeps
  have hnoted : readings.map (·.1) = readings'.map (·.1) := by
    have hread := layout_notes hu _ _ _ hl
    have hread' := layout_notes hu' _ _ _ hl'
    rw [hread, hread', ← veiled_noted v doc, ← veiled_noted v' doc', h]
  have hreferences : doc.references = doc'.references := congrArg (·.references) h
  refine Cells.ext_get? fun i => ?_
  rw [Cells.get?_map, Cells.get?_map, hu.unread.get?_keep (hright hu hl), hu'.unread.get?_keep (hright hu' hl'),
    hreferences, hnoted, Option.map_map, Option.map_map]
  cases doc'.references.get? i with
  | none => rfl
  | some p =>
    obtain ⟨target, r⟩ := p
    have hfinds : ((doc.candidates target).firstNamed? r.name).map v.onId =
        ((doc'.candidates target).firstNamed? r.name).map v'.onId := by
      rw [← veiled_firstNamed?, h, veiled_firstNamed?]
    simp only [Option.map_some, Function.comp_apply, Veil.onReference]
    split
    · rw [hfinds]
    · rfl

end Document

namespace Evaluating

variable {shape : Shape} {tree : Tree Nat} {supply supply' : IdSupply} {doc doc' : Document} {e e' : Evaluation}

/-- The objects that are selected have their entries in the end. -/
theorem exists_entry_of_selectsObject (hs : Tree.AllFrom shape [tree])
    (hlists : ∀ m ∈ Tree.marksOf [tree], e.Lists shape m) (h : tree.selectsObject = true) :
    ∃ p ∈ e.document.objects.entries, SelectedIn tree e p.1 := by
  obtain ⟨n, hn, hselected⟩ := List.any_eq_true.mp h
  obtain ⟨hk, hselected⟩ := Bool.and_eq_true_iff.mp hselected
  have hmem : n ∈ Tree.nodesOf [tree] := List.mem_append_left _ hn
  obtain ⟨handle, id, hm, hentry⟩ := hlists n.1 (List.mem_map_of_mem hmem) .objects
    (hs.eq_of_mem hmem ▸ Kind.collection?_of_isObject hk)
  obtain ⟨p, hp, he⟩ := List.mem_map.mp hentry
  obtain rfl : p.1 = handle := (Prod.mk.inj he).1
  exact ⟨p, hp, n, hn, hk, hselected, hm⟩

/-- Ids that are drawn say nothing but which node holds them. For every tree, whatever nodes are shared in it, and any
two supplies of ids: if the tree is compiled with both, then the same nodes have the same handles, and the documents are
the same when in the place of every id that comes from a node there is the handle that holds it. -/
theorem compileTree_anonymous (hs : Tree.AllFrom shape [tree]) (hg : tree.Given)
    (ha : ∀ n ∈ tree.nodes, n.2.AuthorsText) (h : compileTree tree supply = (.ok doc, e))
    (h' : compileTree tree supply' = (.ok doc', e')) :
    e.met = e'.met ∧
      doc.anonymous e.veil tree.selectsObject = doc'.anonymous e'.veil tree.selectsObject := by
  obtain ⟨notice, e₁, layout, readings, he, hleft, hone, hl, rfl⟩ := evaluate_of_compileTree h
  obtain ⟨notice', e₁', layout', readings', he', hleft', -, hl', rfl⟩ := evaluate_of_compileTree h'
  obtain ⟨hmet, halike⟩ := alike_of_begun (fun mark => (shape mark).1)
    (fun n hn => ⟨hs.eq_of_mem (List.mem_append_left _ hn), ha n hn⟩) he he'
  have hveil : e.veil = e₁.veil := by rw [hleft]; rfl
  have hveil' : e'.veil = e₁'.veil := by rw [hleft']; rfl
  have hmet₁ : e.met = e₁.met := by rw [hleft]
  have hmet₁' : e'.met = e₁'.met := by rw [hleft']
  refine ⟨hmet₁.trans (hmet.trans hmet₁'.symm), ?_⟩
  rw [hveil, hveil']
  have hlists := (integral_of_evaluate hs (hs.authorsText ha) he hone).2
  have hinterface := halike.interface.onInterface_eq (exists_entry_of_selectsObject hs hlists) fun hno n => by
    rintro ⟨m, hm, hk, hselected, -⟩
    have hsome : tree.selectsObject = true :=
      List.any_eq_true.mpr ⟨m, hm, Bool.and_eq_true_iff.mpr ⟨hk, hselected⟩⟩
    rw [hno] at hsome
    cases hsome
  have hunused := (evaluates_of_evaluate tree he).unused hs hg.all .empty
  have hunused' := (evaluates_of_evaluate tree he').unused hs hg.all .empty
  have hreferences := Document.references_keep_eq halike.veiled hunused hunused' hl hl'
  -- everything else is as it is under the veils
  have heq : ∀ (v : Veil) shows (doc : Document) readings, (doc.keep readings).anonymous v shows =
      { doc.veiled v with
        head := { (doc.veiled v).head with interface := v.onInterface shows doc.head.interface }
        references := (doc.keep readings).references.map v.onReference } := fun _ _ _ _ => rfl
  rw [heq, heq, hinterface, hreferences, halike.veiled]

/-- A sprite in two scenes, compiled once with nothing in use and once with an id in use and other bytes, has another id
in the second document and yet the same handle in the place of it. -/
theorem compileTree_anonymous_sharedSprite :
    let supply : IdSupply := ⟨.empty, .counting []⟩
    let supply' : IdSupply := ⟨⟨[.str "0123"]⟩, .counting [0, 1, 2, 3, 35, 70, 7, 9]⟩
    ∃ doc e doc' e', compileTree twoScenes supply = (.ok doc, e) ∧ compileTree twoScenes supply' = (.ok doc', e') ∧
      doc.objectEntries.map (·.id.toText) ≠ doc'.objectEntries.map (·.id.toText) ∧
      e.met = e'.met ∧ doc.anonymous e.veil true = doc'.anonymous e'.veil true := by
  intro supply supply'
  have htree : sharedSprite.tree? (.node 0) = some twoScenes := rfl
  have ha : ∀ n ∈ twoScenes.nodes, n.2.AuthorsText := by decide +kernel
  have hids : (match (compileTree twoScenes supply).1, (compileTree twoScenes supply').1 with
      | .ok doc, .ok doc' =>
        decide (doc.objectEntries.map (·.id.toText) ≠ doc'.objectEntries.map (·.id.toText))
      | _, _ => false) = true := by decide +kernel
  rcases hc : compileTree twoScenes supply with ⟨_ | doc, e⟩
  · rw [hc] at hids
    cases hids
  rcases hc' : compileTree twoScenes supply' with ⟨_ | doc', e'⟩
  · rw [hc, hc'] at hids
    cases hids
  rw [hc, hc'] at hids
  exact ⟨doc, e, doc', e', rfl, rfl, of_decide_eq_true hids,
    compileTree_anonymous (Forest.allFrom_of_tree? htree) given_twoScenes ha hc hc'⟩

end Evaluating

end SceneTree
