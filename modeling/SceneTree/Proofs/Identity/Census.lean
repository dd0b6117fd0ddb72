import Mathlib.Tactic.Abel
import SceneTree.Proofs.Identity.Items
import SceneTree.Proofs.Translation.Listing

/-!
# The ids of a document

All ids of a document, wherever they stand: those of the entries and of what is in them, those of the scripts at any
depth, and those of the local variables. When a forest of new nodes has filled a document, each node has put its id
there once.
-/

namespace SceneTree

/-- The ids of an object and of its pictures and sounds. -/
def ObjectEntry.ids (object : ObjectEntry) : List Value :=
  object.id :: (object.pictures.values.map (·.id) ++ object.sounds.values.map (·.id))

namespace Roster.Below

variable {α β : Type} {r : Roster Handle α} {n : Nat}

/-- What the next handle contributes adds what it has. -/
theorem coe_map_insert (h : r.Below n) (a : α) (f : α → β) :
    (↑((r.insert n a).values.map f) : Multiset β) = ↑(r.values.map f) + {f a} := by
  rw [h.values_insert, List.map_append, ← Multiset.coe_add]
  rfl

end Roster.Below

namespace ObjectEntry

variable {object : ObjectEntry} {n : Handle}

/-- A new picture adds its id to those of an object. -/
theorem ids_addPicture (h : object.pictures.Below n) (entry : PictureEntry) (selected : Bool) :
    ((object.addPicture n entry selected).ids : Multiset Value) = object.ids + {entry.id} := by
  simp only [ids, addPicture, ← Multiset.cons_coe, ← Multiset.coe_add, h.coe_map_insert, Multiset.cons_add]
  rw [add_right_comm]

/-- A new sound adds its id to those of an object. -/
theorem ids_addSound (h : object.sounds.Below n) (entry : SoundEntry) :
    ((object.addSound n entry).ids : Multiset Value) = object.ids + {entry.id} := by
  simp only [ids, addSound, ← Multiset.cons_coe, ← Multiset.coe_add, h.coe_map_insert, Multiset.cons_add]
  rw [add_assoc]

end ObjectEntry

namespace Document

/-- The ids of the scenes, objects, pictures, sounds, variables, messages and functions. -/
def entityIds (doc : Document) : List Value :=
  doc.scenes.values.map (·.id) ++ (doc.objectEntries.flatMap ObjectEntry.ids ++ (doc.globals.values.map (·.id) ++
    (doc.messages.values.map (·.id) ++ doc.functionEntries.map (·.id))))

/-- The places of the scripts of objects and of the contents of functions. -/
def outerPlaces (doc : Document) : List Nat :=
  doc.objectEntries.map (·.blocks) ++ doc.functionEntries.map (·.content)

/-- The ids of the scripts of objects and in the contents of functions, down to a depth. -/
def scriptIds (doc : Document) (depth : Nat) : List Value :=
  doc.outerPlaces.flatMap fun place => (doc.itemsWithin depth place).filterMap Item.scriptId?

/-- The ids of the local variables of all functions. -/
def localIds (doc : Document) : List Value := doc.functionEntries.flatMap fun f => f.locals.values.map (·.id)

theorem entityIds_keep (doc : Document) (readings : Readings) : (doc.keep readings).entityIds = doc.entityIds := rfl

theorem localIds_keep (doc : Document) (readings : Readings) : (doc.keep readings).localIds = doc.localIds := rfl

/-- What references keep changes nothing about the items of places. -/
theorem itemsWithin_keep (doc : Document) (readings : Readings) (depth place : Nat) :
    (doc.keep readings).itemsWithin depth place = doc.itemsWithin depth place := by
  induction depth generalizing place with
  | zero => rfl
  | succ depth ih =>
    have hsame : (doc.keep readings).itemsWithin depth = doc.itemsWithin depth := funext ih
    have hheld : (doc.keep readings).held place = doc.held place := rfl
    rw [itemsWithin, itemsWithin, hsame, hheld]

theorem scriptIds_keep (doc : Document) (readings : Readings) (depth : Nat) :
    (doc.keep readings).scriptIds depth = doc.scriptIds depth := by
  have houter : (doc.keep readings).outerPlaces = doc.outerPlaces := rfl
  unfold scriptIds
  simp only [itemsWithin_keep, houter]

/-- Every object and every function that was ever created is an entry. -/
structure Complete (doc : Document) : Prop where
  objects : doc.objects.values = List.range doc.objectCells.size
  functions : doc.functions.values = List.range doc.functionCells.size

section Bags

variable {β : Type} {doc : Document} {n : Handle} {p : Nat}

/-- Something of all items of all places together. -/
def bag (g : Item → List β) (doc : Document) : Multiset β :=
  doc.parts.sum fun items => (↑(items.values.flatMap g) : Multiset β)

/-- A new place has no items. -/
theorem bag_addPlace (g : Item → List β) (doc : Document) : doc.addPlace.bag g = doc.bag g := by
  unfold bag addPlace
  rw [Cells.sum_add]
  exact add_zero (doc.bag g)

/-- An item that is put into a place adds what it has. -/
theorem bag_putItem (g : Item → List β) (hb : doc.Below n) (hp : p < doc.parts.size) (item : Item) :
    (doc.putItem p n item).bag g = doc.bag g + g item := by
  obtain ⟨items, hi⟩ := Option.isSome_iff_exists.mp (Cells.isSome_get?_iff.mpr hp)
  refine Cells.sum_modify hi ?_
  rw [(hb.parts p items hi).values_insert item, List.flatMap_append, List.flatMap_singleton, Multiset.coe_add]

/-- What the items have, place by place. -/
theorem bag_eq_bind (g : Item → List β) (doc : Document) :
    doc.bag g = (Multiset.range doc.parts.size).bind fun p => (↑((doc.held p).flatMap g) : Multiset β) := by
  have hplace : ∀ p, ((doc.parts.get? p).map fun items => (↑(items.values.flatMap g) : Multiset β)).getD 0 =
      ↑((doc.held p).flatMap g) := by
    intro p
    unfold held
    cases doc.parts.get? p <;> rfl
  unfold bag Cells.sum
  rw [Finset.sum_congr rfl fun p _ => hplace p]
  rfl

/-- All ids of entries together, whether the objects and functions that have them are entries or not. -/
def entityBag (doc : Document) : Multiset Value :=
  (doc.scenes.values.map (·.id) : List Value) + (doc.objectCells.sum (fun o => (o.ids : Multiset Value)) +
    ((doc.globals.values.map (·.id) : List Value) + ((doc.messages.values.map (·.id) : List Value) +
      doc.functionCells.sum fun f => ([f.id] : Multiset Value))))

/-- The places that objects, functions, statements and scripts have for themselves. -/
def placeBag (doc : Document) : Multiset Nat :=
  doc.objectCells.sum (fun o => {o.blocks}) + doc.functionCells.sum (fun f => {f.content}) + doc.bag Item.places

/-- In a complete document all ids of entries are those of its objects, functions and so on. -/
theorem Complete.coe_entityIds (h : doc.Complete) : (doc.entityIds : Multiset Value) = doc.entityBag := by
  have hobjects := Cells.sum_coe_flatMap ObjectEntry.ids doc.objectCells
  have hfunctions := Cells.sum_coe_flatMap (fun f : FunctionEntry => [f.id]) doc.functionCells
  unfold entityIds entityBag objectEntries functionEntries
  rw [h.objects, h.functions, ← hobjects, ← hfunctions, List.map_eq_flatMap (f := fun f : FunctionEntry => f.id)]
  simp only [Multiset.coe_add]

/-- In a complete document the local variables are those of all functions. -/
theorem Complete.coe_localIds (h : doc.Complete) :
    (doc.localIds : Multiset Value) =
      doc.functionCells.sum fun f => (↑(f.locals.values.map (·.id)) : Multiset Value) := by
  unfold localIds functionEntries
  rw [h.functions]
  exact Cells.sum_coe_flatMap _ doc.functionCells

/-- In a complete document the outer places are those of all objects and functions. -/
theorem Complete.coe_outerPlaces (h : doc.Complete) :
    (doc.outerPlaces : Multiset Nat) =
      doc.objectCells.sum (fun o => {o.blocks}) + doc.functionCells.sum fun f => {f.content} := by
  have hobjects := Cells.sum_coe_flatMap (fun o : ObjectEntry => [o.blocks]) doc.objectCells
  have hfunctions := Cells.sum_coe_flatMap (fun f : FunctionEntry => [f.content]) doc.functionCells
  unfold outerPlaces objectEntries functionEntries
  rw [h.objects, h.functions, List.map_eq_flatMap, List.map_eq_flatMap, ← Multiset.coe_add, hobjects, hfunctions]
  rfl

/-- Where no place stands in two places, the scripts that are found are among all that there are. -/
theorem Complete.scriptIds_le (h : doc.Complete) (hp : doc.placeBag = Multiset.range doc.parts.size) (depth : Nat) :
    (doc.scriptIds depth : Multiset Value) ≤ doc.bag fun item => item.scriptId?.toList := by
  have hall : (doc.outerPlaces : Multiset Nat) + (Multiset.range doc.parts.size).bind doc.placesIn ≤
      Multiset.range doc.parts.size := by
    rw [h.coe_outerPlaces]
    refine le_of_eq (Eq.trans ?_ hp)
    unfold placeBag
    rw [bag_eq_bind]
    rfl
  have hscripts : (doc.scriptIds depth : Multiset Value) =
      ((doc.outerPlaces : Multiset Nat).bind (doc.placesWithin depth)).bind fun p =>
        ((doc.held p).flatMap fun item => item.scriptId?.toList : List Value) := by
    rw [Multiset.bind_assoc]
    unfold scriptIds
    rw [← Multiset.coe_bind]
    refine Multiset.bind_congr fun place _ => ?_
    rw [← Multiset.filterMap_coe, coe_itemsWithin, Multiset.filterMap_bind]
    refine Multiset.bind_congr fun p _ => ?_
    rw [Multiset.filterMap_coe, List.filterMap_eq_flatMap_toList]
  rw [hscripts, bag_eq_bind]
  exact bind_mono (placesWithin_le hall depth) _

end Bags

end Document

namespace Kind

/-- The kinds of node that are entries of a document or of an object. -/
def isEntity : Kind → Bool
  | .scene | .object | .sprite | .textBox | .picture | .sound | .variable | .message | .function => true
  | _ => false

theorem isEntity_of_isObject {kind : Kind} (h : kind.isObject = true) : kind.isEntity = true := by
  cases kind <;> first | rfl | cases h

theorem not_isEntity_of_isNamedParam {kind : Kind} (h : kind.isNamedParam = true) : ¬ kind.isEntity = true := by
  cases kind <;> first | exact Bool.false_ne_true | cases h

end Kind

namespace Branch

/-- The id of a node that is an entry. -/
def entityId? (b : Branch) : Option Value := if b.kind.isEntity then some b.id else none

/-- The id of a script. -/
def scriptId? (b : Branch) : Option Value := if b.kind = .script then some b.id else none

/-- The nearest function: the node itself or the one above; none below an object. -/
def functionBelow (function : Value) (b : Branch) : Value :=
  if b.kind.isObject then .null else if b.kind = .function then b.id else function

/-- The id of a local variable, of which that of the function is a part. -/
def localId? (function : Value) (b : Branch) : Option Value :=
  if b.kind = .localVariable then some (b.node.localEntry b.id function).id else none

/-- The item that a node puts into a place. -/
def item? (b : Branch) (doc : Document) : Option Item :=
  match b.kind with
  | .statement => some (.block doc.parts.size)
  | .script => some (.script (b.node.scriptHead b.id) doc.parts.size (doc.parts.size + 1))
  | .param => some (.value (b.node.paramValue (Tree.literals b.children)))
  | .namedParam | .variableParam | .objectParam | .pictureParam | .soundParam => some (.reference doc.references.size)
  | _ => none

theorem item?_of_isObject {b : Branch} (h : b.kind.isObject = true) (doc : Document) : b.item? doc = none := by
  unfold item?
  cases hk : b.kind <;> first | rfl | (rw [hk] at h; cases h)

theorem item?_of_isNamedParam {b : Branch} (h : b.kind.isNamedParam = true) (doc : Document) :
    b.item? doc = some (.reference doc.references.size) := by
  unfold item?
  cases hk : b.kind <;> first | rfl | (rw [hk] at h; cases h)

theorem entityId?_of_isEntity {b : Branch} (h : b.kind.isEntity = true) : b.entityId? = some b.id := if_pos h

end Branch

theorem foldl_add_singleton {α : Type} (xs : List α) (s : Multiset α) :
    xs.foldl (fun ids id => ids + {id}) s = s + xs := by
  induction xs generalizing s with
  | nil => exact (add_zero s).symm
  | cons x rest ih =>
    rw [List.foldl_cons, ih, add_assoc]
    rfl

section

open Document

variable {scope : NodeScope} {n n' : Handle} {doc doc₁ doc' : Document} {b : Branch} {out : Option NodeScope}
  {forest : List (Tree Value)}

/-- The ids of entries, each from its own node. -/
theorem entityIds_channel :
    Channel entityBag (fun ids id => ids + {id}) (fun _ _ => ()) (fun _ => Branch.entityId?) fun _ _ _ => True where
  gives := by
    intro _ scope n doc b out doc₁ _ h
    have hb := h.fresh.below
    cases h.effect with
    | scene hk =>
      rw [Branch.entityId?_of_isEntity (by rw [hk]; rfl)]
      simp only [entityBag, addScene, hb.scenes.coe_map_insert]
      exact add_right_comm _ _ _
    | object hk =>
      rw [Branch.entityId?_of_isEntity (Kind.isEntity_of_isObject hk)]
      simp only [entityBag, addObject, addPlace, Cells.sum_add]
      change _ + (_ + {b.id} + _) = _ + {b.id}
      abel
    | picture hk _ hc =>
      rw [Branch.entityId?_of_isEntity (by rw [hk]; rfl)]
      simp only [entityBag, changeObject]
      rw [Cells.sum_modify (m := {b.id}) hc (ObjectEntry.ids_addPicture (hb.objectCells _ _ hc).1 _ _)]
      change _ = _ + {b.id}
      abel
    | sound hk ho =>
      obtain ⟨object, hc⟩ := Option.isSome_iff_exists.mp (Cells.isSome_get?_iff.mpr (h.within.object _ ho))
      rw [Branch.entityId?_of_isEntity (by rw [hk]; rfl)]
      simp only [entityBag, changeObject]
      rw [Cells.sum_modify (m := {b.id}) hc (ObjectEntry.ids_addSound (hb.objectCells _ _ hc).2 _)]
      change _ = _ + {b.id}
      abel
    | global hk =>
      rw [Branch.entityId?_of_isEntity (by rw [hk]; rfl)]
      simp only [entityBag, addVariable, hb.globals.coe_map_insert]
      change _ + (_ + (_ + {b.id} + _)) = _ + {b.id}
      abel
    | message hk =>
      rw [Branch.entityId?_of_isEntity (by rw [hk]; rfl)]
      simp only [entityBag, addMessage, hb.messages.coe_map_insert]
      change _ + (_ + (_ + (_ + {b.id} + _))) = _ + {b.id}
      abel
    | function hk =>
      rw [Branch.entityId?_of_isEntity (by rw [hk]; rfl)]
      simp only [entityBag, addFunction, addPlace, Cells.sum_add]
      change _ + (_ + (_ + (_ + (_ + {b.id})))) = _ + {b.id}
      abel
    | localVariable hk =>
      rw [Branch.entityId?, hk]
      simp only [entityBag, changeFunction]
      rw [Cells.sum_modify_of_eq]
      · rfl
      · exact fun _ => rfl
    | project hk =>
      rw [Branch.entityId?, hk, h.blank hk]
      rfl
    | named hk =>
      rw [Branch.entityId?, if_neg (Kind.not_isEntity_of_isNamedParam hk)]
      rfl
    | _ hk =>
      rw [Branch.entityId?, hk]
      rfl
  inner := fun _ _ => trivial
  later := fun _ _ => trivial

/-- What the items of places have grows by what the item of a node has. -/
theorem Contributes.bag {β : Type} (h : Contributes scope n doc b out doc₁) (g : Item → List β) :
    doc₁.bag g = doc.bag g + ↑((b.item? doc).toList.flatMap g) := by
  have hb := h.fresh.below
  have hsize : doc.addPlace.parts.size = doc.parts.size + 1 := Cells.size_add _ _
  cases h.effect with
  | object hk =>
    rw [Branch.item?_of_isObject hk]
    exact (bag_addPlace g doc).trans (add_zero _).symm
  | function hk =>
    rw [Branch.item?, hk]
    exact (bag_addPlace g doc).trans (add_zero _).symm
  | statement hk hs =>
    have hlt := h.within.statements_lt hs
    rw [Branch.item?, hk, bag_putItem g hb.addPlace (by omega), bag_addPlace, Option.toList_some,
      List.flatMap_singleton]
  | script hk hp =>
    have hlt := h.within.params_lt hp
    have hsize₂ : doc.addPlace.addPlace.parts.size = doc.addPlace.parts.size + 1 := Cells.size_add _ _
    rw [Branch.item?, hk, bag_putItem g hb.addPlace.addPlace (by omega), bag_addPlace, bag_addPlace,
      Option.toList_some, List.flatMap_singleton]
  | param hk hp =>
    rw [Branch.item?, hk, bag_putItem g hb (h.within.params_lt hp), Option.toList_some, List.flatMap_singleton]
  | named hk _ hp =>
    rw [Branch.item?_of_isNamedParam hk, bag_putItem g (hb.addReference _ _) (h.within.params_lt hp),
      Option.toList_some, List.flatMap_singleton]
    rfl
  | _ hk =>
    rw [Branch.item?, hk]
    exact (add_zero _).symm

/-- The ids of scripts, each from its own node. -/
theorem scriptIds_channel :
    Channel (Document.bag fun item => item.scriptId?.toList) (fun ids id => ids + {id}) (fun _ _ => ())
      (fun _ => Branch.scriptId?) fun _ _ _ => True where
  gives := by
    intro _ scope n doc b out doc₁ _ h
    have hpiece : (b.item? doc).toList.flatMap (fun item => item.scriptId?.toList) = b.scriptId?.toList := by
      unfold Branch.item? Branch.scriptId?
      cases b.kind <;> rfl
    rw [h.bag, hpiece, foldl_add_singleton]
  inner := fun _ _ => trivial
  later := fun _ _ => trivial

/-- A new place is that of one node, which has it for itself. -/
theorem Contributes.placeBag (h : Contributes scope n doc b out doc₁)
    (hp : doc.placeBag = Multiset.range doc.parts.size) : doc₁.placeBag = Multiset.range doc₁.parts.size := by
  unfold Document.placeBag at hp ⊢
  rw [h.bag]
  cases h.effect with
  | object hk =>
    rw [Branch.item?_of_isObject hk]
    simp only [addObject, addPlace, Cells.sum_add, Cells.size_add, Multiset.range_succ, ← hp, Option.toList_none,
      List.flatMap_nil, Multiset.coe_nil, ← Multiset.singleton_add]
    change _ + {doc.parts.size} + _ + _ = _
    abel
  | function hk =>
    rw [Branch.item?, hk]
    simp only [addFunction, addPlace, Cells.sum_add, Cells.size_add, Multiset.range_succ, ← hp, Option.toList_none,
      List.flatMap_nil, Multiset.coe_nil, ← Multiset.singleton_add]
    change _ + (_ + {doc.parts.size}) + _ = _
    abel
  | statement hk hs =>
    rw [Branch.item?, hk]
    simp only [putItem, addPlace, Cells.size_modify, Cells.size_add, Multiset.range_succ, ← hp, Option.toList_some,
      List.flatMap_singleton, Item.places, ← Multiset.singleton_add, Multiset.coe_singleton]
    abel
  | script hk hq =>
    rw [Branch.item?, hk]
    simp only [putItem, addPlace, Cells.size_modify, Cells.size_add, Multiset.range_succ, ← hp, Option.toList_some,
      List.flatMap_singleton, Item.places, ← Multiset.singleton_add, ← Multiset.cons_coe, Multiset.coe_nil]
    abel
  | picture hk | sound hk =>
    rw [Branch.item?, hk]
    simp only [changeObject]
    rw [Cells.sum_modify_of_eq]
    · exact (congrArg _ (add_zero _)).trans hp
    · exact fun _ => rfl
  | localVariable hk =>
    rw [Branch.item?, hk]
    simp only [changeFunction]
    rw [Cells.sum_modify_of_eq]
    · exact (congrArg _ (add_zero _)).trans hp
    · exact fun _ => rfl
  | param hk =>
    rw [Branch.item?, hk]
    simp only [putItem, Cells.size_modify]
    exact (congrArg _ (add_zero _)).trans hp
  | named hk =>
    rw [Branch.item?_of_isNamedParam hk]
    simp only [putItem, addReference, Cells.size_modify]
    exact (congrArg _ (add_zero _)).trans hp
  | _ hk =>
    rw [Branch.item?, hk]
    exact (congrArg _ (add_zero _)).trans hp

/-- Every object and every function that a node creates is an entry. -/
theorem Contributes.complete (h : Contributes scope n doc b out doc₁) (hc : doc.Complete) : doc₁.Complete := by
  have hb := h.fresh.below
  cases h.effect with
  | object hk =>
    refine ⟨?_, hc.functions⟩
    rw [h.objects_of_isObject hk, hc.objects]
    simp only [addObject, addPlace, Cells.size_add, List.range_succ]
  | function hk =>
    refine ⟨hc.objects, ?_⟩
    rw [h.functions_of_function hk, hc.functions]
    simp only [addFunction, addPlace, Cells.size_add, List.range_succ]
  | project hk =>
    rw [h.blank hk]
    exact ⟨rfl, rfl⟩
  | picture | sound => exact ⟨hc.objects.trans (by rw [changeObject, Cells.size_modify]), hc.functions⟩
  | localVariable => exact ⟨hc.objects, hc.functions.trans (by rw [changeFunction, Cells.size_modify])⟩
  | _ => exact ⟨hc.objects, hc.functions⟩

/-- What every contribution keeps, a filling keeps. -/
theorem Fills.keeps {I : Document → Prop}
    (hI : ∀ {scope n doc b out doc₁}, Contributes scope n doc b out doc₁ → I doc → I doc₁)
    (h : Fills scope forest n doc n' doc') (hd : I doc) : I doc' := by
  induction h with
  | nil => exact hd
  | literal v _ ih => exact ih hd
  | leaf hb _ _ ih => exact ih (hI hb hd)
  | branch hb _ _ ihc ihr => exact ihr (ihc (hI hb hd))

/-- The function that is bound keeps its id. -/
theorem functionIn_later (hw : scope.Within doc) (hl : doc.Later doc') :
    doc'.functionIn scope = doc.functionIn scope := by
  unfold Document.functionIn
  cases hf : scope.get .function with
  | none => rfl
  | some i =>
    obtain ⟨f, hi⟩ := Option.isSome_iff_exists.mp (Cells.isSome_get?_iff.mpr (hw.function i hf))
    obtain ⟨f', hi', hframe⟩ := hl.functions i f hi
    have hid : f'.frame.id = f.frame.id := by rw [hframe]
    have hid : f'.id = f.id := hid
    simp only [hi, hi', Option.map_some, Option.getD_some, hid]

/-- The local variables, each with the nearest function above. -/
theorem localIds_channel :
    Channel (fun doc => doc.functionCells.sum fun f => (↑(f.locals.values.map (·.id)) : Multiset Value))
      (fun ids id => ids + {id}) Branch.functionBelow Branch.localId? fun function scope doc =>
        scope.Within doc ∧ doc.functionIn scope = function where
  gives := by
    rintro function scope n doc b out doc₁ ⟨hw, hf⟩ h
    cases h.effect with
    | localVariable hk hi =>
      obtain ⟨f, hc⟩ := Option.isSome_iff_exists.mp (Cells.isSome_get?_iff.mpr (h.within.function _ hi))
      rw [Branch.localId?, if_pos hk, ← hf]
      exact Cells.sum_modify hc ((h.fresh.below.functionCells _ _ hc).coe_map_insert _ _)
    | function hk =>
      rw [Branch.localId?, hk]
      exact (Cells.sum_add _ _ _).trans (add_zero _)
    | project hk =>
      rw [Branch.localId?, hk, h.blank hk]
      rfl
    | named hk =>
      rw [Branch.localId?, if_neg (by intro he; rw [he] at hk; cases hk)]
      rfl
    | object hk =>
      rw [Branch.localId?, if_neg (by intro he; rw [he] at hk; cases hk)]
      rfl
    | _ hk =>
      rw [Branch.localId?, hk]
      rfl
  inner := by
    rintro function scope inner n doc b doc₁ ⟨hw, hf⟩ h
    refine ⟨h.effect.within hw, ?_⟩
    have hget := h.effect.get_function
    unfold Branch.functionBelow
    split at hget
    · next hk =>
      rw [if_pos hk, Document.functionIn, hget]
    · next hk =>
      rw [if_neg hk]
      split at hget
      · next hk =>
        obtain ⟨-, rfl⟩ := h.effect.of_function hk
        rw [if_pos hk, Document.functionIn, hget]
        simp only [addFunction, addPlace, Cells.get?_add_self, Option.map_some, Option.getD_some]
        rfl
      · next hk =>
        rw [if_neg hk, ← hf, ← functionIn_later hw h.effect.later]
        unfold Document.functionIn
        rw [hget]
  later := by
    rintro function scope doc doc' ⟨hw, hf⟩ hl
    exact ⟨hw.later hl, (functionIn_later hw hl).trans hf⟩

end

end SceneTree
