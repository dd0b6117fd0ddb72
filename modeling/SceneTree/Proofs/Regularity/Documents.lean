import SceneTree.Proofs.Integrity.Homes
import SceneTree.Proofs.Integrity.Steady
import SceneTree.Proofs.Regularity.Trees
import SceneTree.Proofs.Translation.Compiled

/-!
# Regular documents

While a regular tree is evaluated, every entry of the document is laid out as a regular value, and so is every item of a
script. The maps that a project and its tables take over need not have texts as keys; what holds of them is a parameter.
-/

namespace SceneTree

open Value

/-- The values of an item are regular. -/
def Item.Regular : Item → Prop
  | .value v => v.Regular
  | .script head _ _ => (head.layout .null .null).Regular
  | .block _ | .reference _ => True

/-- The values of an object and of what is in it are regular. -/
structure ObjectEntry.Regular (object : ObjectEntry) : Prop where
  head : (object.toObjectHead.layout "" [] [] .null).Regular
  entity : object.entity.layout.Regular
  pictures : ∀ e ∈ object.pictures.values, e.layout.Regular
  sounds : ∀ e ∈ object.sounds.values, e.layout.Regular

/-- The values of a function and of what is in it are regular. -/
structure FunctionEntry.Regular (function : FunctionEntry) : Prop where
  head : (function.toFunctionHead.layout none "").Regular
  locals : ∀ e ∈ function.locals.values, e.layout.Regular

/-- The values in a document are regular, and its maps have a property. -/
structure Document.Bears (M : Entries → Prop) (doc : Document) : Prop where
  head : ({ doc.head with interface := [] }.layout [] [] [] [] [] []).Regular
  interface : M doc.head.interface
  scenes : ∀ e ∈ doc.scenes.values, e.layout.Regular
  globals : ∀ e ∈ doc.globals.values, e.layout.Regular
  messages : ∀ e ∈ doc.messages.values, e.layout.Regular
  tables : ∀ table ∈ doc.tables.values, M table
  objects : doc.objectCells.All ObjectEntry.Regular
  functions : doc.functionCells.All FunctionEntry.Regular
  items : ∀ {p item}, item ∈ doc.held p → item.Regular

/-- A property of maps that the empty map has and that stays when the selected object is shown. -/
structure Showable (M : Entries → Prop) : Prop where
  nil : M []
  put : ∀ {entries : Entries} {id : Value}, M entries → id.Regular → M (entries.put (.str "object") id)

/-- The maps that a node hands over have a property. -/
structure Node.Hands (M : Entries → Prop) (node : Node) : Prop where
  interface : node.kind = .project → M (node.get .interface).entryList
  data : node.kind = .table → M (node.get .data).entryList

/-- The layout of an object is regular if all that it shows is, and null shows or is left out. -/
theorem ObjectHead.regular_layout_iff {head : ObjectHead} {script : String} {pictures sounds : List Value}
    {entity : Value} :
    (head.layout script pictures sounds entity).Regular ↔
      (head.id.Regular ∧ head.name.Regular ∧ head.lock.Regular ∧ head.scene.Regular) ∧
        (head.selectedPicture.Regular ∧ head.text.Regular) ∧
        (Value.list pictures).Regular ∧ (Value.list sounds).Regular ∧ entity.Regular ∧
        head.objectType.Regular ∧ head.rotateMethod.Regular := by
  have hnull {v : Value} (h : v.isNull = true) : v.Regular := by
    cases v with
    | null => exact .null
    | _ => cases h
  by_cases hp : head.selectedPicture.isNull = true <;> by_cases ht : head.text.isNull = true <;>
    simp [ObjectHead.layout, regular_object_iff, optional, hp, ht, hnull, Value.Regular.str, and_assoc]

/-- A block of a script is regular if its values and what it holds are. -/
theorem ScriptHead.regular_layout {head : ScriptHead} {params statements : Value}
    (h : (head.layout .null .null).Regular) (hp : params.Regular) (hs : statements.Regular) :
    (head.layout params statements).Regular := by
  simp only [ScriptHead.layout, regular_object_iff, List.forall_mem_cons] at h ⊢
  exact ⟨h.1, h.2.1, h.2.2.1, hp, hs, h.2.2.2.2.2⟩

namespace Node.Regular

variable {node : Node} {id : Value} {n : Handle}

/-- A scene of a regular node. -/
theorem sceneEntry (h : node.Regular) (hid : id.Regular) : (node.sceneEntry id).layout.Regular := by
  simp [SceneEntry.layout, Node.sceneEntry, regular_object_iff, hid, h .name]

/-- A message of a regular node. -/
theorem messageEntry (h : node.Regular) (hid : id.Regular) : (node.messageEntry id).layout.Regular := by
  simp [MessageEntry.layout, Node.messageEntry, regular_object_iff, hid, h .name]

/-- A picture of a regular node. -/
theorem pictureEntry (h : node.Regular) (hid : id.Regular) : (node.pictureEntry id).layout.Regular := by
  simp [PictureEntry.layout, Node.pictureEntry, regular_object_iff, hid, h _]

/-- A sound of a regular node. -/
theorem soundEntry (h : node.Regular) (hid : id.Regular) : (node.soundEntry id).layout.Regular := by
  simp [SoundEntry.layout, Node.soundEntry, regular_object_iff, hid, h _]

/-- A variable of a regular node. -/
theorem variableEntry (h : node.Regular) (hid : id.Regular) {owner : Value} (ho : owner.Regular) :
    (node.variableEntry id owner).layout.Regular := by
  simp [VariableEntry.layout, Node.variableEntry, regular_object_iff, hid, ho, h _]

/-- A local variable of a regular node. -/
theorem localEntry (h : node.Regular) (id function : Value) : (node.localEntry id function).layout.Regular := by
  simp [LocalVariableEntry.layout, Node.localEntry, regular_object_iff, Value.Regular.str, h _]

/-- What only a text box shows of a regular node. -/
theorem ofTextBox (h : node.Regular) (field : Field) : (node.ofTextBox field).Regular := by
  unfold Node.ofTextBox
  split
  · exact h field
  · exact .null

/-- The looks of an object of a regular node. -/
theorem looks (h : node.Regular) : node.looks.layout.Regular := by
  have hfont : (if (node.get .font).isNull then .str "undefinedpx " else node.get .font).Regular := by
    split
    · exact .str _
    · exact h .font
  refine Value.Regular.sublist (?_ : (Value.object (_ ++ node.looks.styling)).Regular)
    (List.filter_sublist.append_left _)
  simp [Node.looks, Entity.styling, regular_object_iff, h.ofTextBox, hfont, h _]

/-- An object of a regular node, with nothing in it. -/
theorem objectEntry (h : node.Regular) (hid : id.Regular) {scene : Value} (hs : scene.Regular) (blocks : Nat) :
    (node.objectEntry id scene blocks).Regular where
  head := by
    rw [ObjectHead.regular_layout_iff]
    simp only [Node.objectEntry, Node.objectHead, h.ofTextBox, hid, hs, h _, Value.Regular.null, true_and, and_true]
    exact ⟨.list (List.forall_mem_nil _), .list (List.forall_mem_nil _)⟩
  entity := h.looks
  pictures := List.forall_mem_nil _
  sounds := List.forall_mem_nil _

/-- A function of a regular node, with nothing in it. -/
theorem functionEntry (h : node.Regular) (hid : id.Regular) (content : Nat) :
    (node.functionEntry id content).Regular where
  head := by
    simp [FunctionHead.layout, Node.functionEntry, Node.functionHead, regular_object_iff, hid, h _, Value.Regular.str]
  locals := List.forall_mem_nil _

/-- A block of a script of a regular node. -/
theorem scriptHead (h : node.Regular) (hid : id.Regular) :
    ((node.scriptHead id).layout .null .null).Regular := by
  have hextensions : (Value.list (node.get .extensions).itemList).Regular := .list (h .extensions).itemList
  simp [ScriptHead.layout, Node.scriptHead, regular_object_iff, hid, hextensions, h _, Value.Regular.null]

/-- What a regular project says of itself. -/
theorem projectHead (h : node.Regular) :
    ({ node.projectHead with interface := [] }.layout [] [] [] [] [] []).Regular := by
  have hlist {field : Field} : (Value.list (node.get field).itemList).Regular := .list (h field).itemList
  have hnil : (Value.list []).Regular := .list (List.forall_mem_nil _)
  have hmap : (Value.map []).Regular := @Value.Regular.object [] List.nodup_nil (List.forall_mem_nil _)
  simp [ProjectHead.layout, Node.projectHead, regular_object_iff, hlist, hnil, hmap, h _]

/-- The value of a parameter. -/
theorem paramValue (h : node.Regular) {literals : List Value} (hl : ∀ v ∈ literals, v.Regular) :
    (node.paramValue literals).Regular := by
  have hvalues : ∀ v ∈ node.paramValues literals, v.Regular := by
    unfold Node.paramValues
    split
    · exact hl
    · exact List.forall_mem_cons.mpr ⟨h .value, hl⟩
  unfold Node.paramValue
  cases hv : node.paramValues literals with
  | nil => exact .null
  | cons v rest => exact hvalues v (hv ▸ List.mem_cons_self)

end Node.Regular

namespace ObjectEntry.Regular

variable {object : ObjectEntry}

/-- A regular object has a regular id. -/
theorem id (h : object.Regular) : object.id.Regular := (ObjectHead.regular_layout_iff.mp h.head).1.1

theorem addPicture (h : object.Regular) {entry : PictureEntry} (he : entry.layout.Regular) (n : Handle)
    (selected : Bool) : (object.addPicture n entry selected).Regular where
  head := by
    obtain ⟨hfirst, ⟨hpicture, htext⟩, hrest⟩ := ObjectHead.regular_layout_iff.mp h.head
    refine ObjectHead.regular_layout_iff.mpr ⟨hfirst, ⟨?_, htext⟩, hrest⟩
    change (if selected = true then entry.id else object.selectedPicture).Regular
    split
    · exact he.head
    · exact hpicture
  entity := h.entity
  pictures := fun e hm => (Roster.mem_values_insert hm).elim (h.pictures e) fun he' => he' ▸ he
  sounds := h.sounds

theorem addSound (h : object.Regular) {entry : SoundEntry} (he : entry.layout.Regular) (n : Handle) :
    (object.addSound n entry).Regular where
  head := h.head
  entity := h.entity
  pictures := h.pictures
  sounds := fun e hm => (Roster.mem_values_insert hm).elim (h.sounds e) fun he' => he' ▸ he

end ObjectEntry.Regular

theorem FunctionEntry.Regular.addLocal {function : FunctionEntry} (h : function.Regular) {entry : LocalVariableEntry}
    (he : entry.layout.Regular) (n : Handle) : (function.addLocal n entry).Regular where
  head := h.head
  locals := fun e hm => (Roster.mem_values_insert hm).elim (h.locals e) fun he' => he' ▸ he

namespace Document

variable {M : Entries → Prop} {doc : Document}

theorem Bears.empty (hM : Showable M) : Document.empty.Bears M where
  head := by
    have hnil : (Value.list []).Regular := .list (List.forall_mem_nil _)
    have hmap : (Value.map []).Regular := @Value.Regular.object [] List.nodup_nil (List.forall_mem_nil _)
    have hspeed : (Value.int 60).Regular := regular_of_isInitial rfl
    simp [ProjectHead.layout, Document.empty, regular_object_iff, hnil, hmap, hspeed, Value.Regular.null]
  interface := hM.nil
  scenes := List.forall_mem_nil _
  globals := List.forall_mem_nil _
  messages := List.forall_mem_nil _
  tables := List.forall_mem_nil _
  objects := .empty _
  functions := .empty _
  items := fun h => absurd h List.not_mem_nil

theorem Bears.addPlace (h : doc.Bears M) : doc.addPlace.Bears M :=
  { h with items := fun hi => h.items (mem_held_addPlace hi) }

theorem Bears.putItem (h : doc.Bears M) {item : Item} (hi : item.Regular) (place : Nat) (n : Handle) :
    (doc.putItem place n item).Bears M :=
  { h with items := fun hm => (mem_held_putItem hm).elim h.items fun he => he.2 ▸ hi }

/-- The object that variables belong to has a regular id. -/
theorem Bears.ownerIn (h : doc.Bears M) (scope : NodeScope) : (doc.ownerIn scope).Regular := by
  unfold Document.ownerIn
  split
  · next index _ =>
    cases ho : doc.objectCells.get? index with
    | none => exact .null
    | some object => exact (h.objects index object ho).id
  · exact .null

end Document

section

variable {M : Entries → Prop} {scope : NodeScope} {n : Handle} {doc doc' : Document} {b : Branch}
  {out : Option NodeScope}

/-- An effect of a regular node keeps a document regular. -/
theorem Effect.bears (h : Effect scope n doc b out doc') (hM : Showable M) (hn : b.node.Regular)
    (hm : b.node.Hands M) (hid : b.id.Regular) (hl : ∀ v ∈ Tree.literals b.children, v.Regular)
    (hs : ∀ id, scope.get .sceneId = some id → Value.Regular id) (hd : doc.Bears M) : doc'.Bears M := by
  cases h with
  | fragment => exact hd
  | project hk =>
    exact
      { hd with
        head := hn.projectHead
        interface := hm.interface hk
        scenes := List.forall_mem_nil _
        globals := List.forall_mem_nil _
        messages := List.forall_mem_nil _
        tables := List.forall_mem_nil _ }
  | scene =>
    exact
      { hd with
        scenes := fun e he => (Roster.mem_values_insert he).elim (hd.scenes e) fun he => he ▸ hn.sceneEntry hid }
  | object _ _ hscene =>
    exact
      { hd.addPlace with
        head := by
          have hhead := hd.head
          unfold Document.addObject
          simp only
          split
          · exact hhead
          · exact hhead
        interface := by
          have hinterface := hd.interface
          unfold Document.addObject
          simp only
          split
          · exact hM.put hinterface hid
          · exact hinterface
        objects := hd.objects.add (hn.objectEntry hid (hs _ hscene) _) }
  | picture =>
    exact
      { hd with
        objects := hd.objects.modify _ (fun _ => id) fun _ ho => ho.addPicture (hn.pictureEntry hid) _ _ }
  | sound =>
    exact { hd with objects := hd.objects.modify _ (fun _ => id) fun _ ho => ho.addSound (hn.soundEntry hid) _ }
  | global =>
    exact
      { hd with
        globals := fun e he => (Roster.mem_values_insert he).elim (hd.globals e)
          fun he => he ▸ hn.variableEntry hid (hd.ownerIn scope) }
  | message =>
    exact
      { hd with
        messages := fun e he => (Roster.mem_values_insert he).elim (hd.messages e) fun he => he ▸ hn.messageEntry hid }
  | function => exact { hd.addPlace with functions := hd.functions.add (hn.functionEntry hid _) }
  | localVariable =>
    exact
      { hd with
        functions := hd.functions.modify _ (fun _ => id) fun _ hf => hf.addLocal (hn.localEntry _ _) _ }
  | table hk =>
    exact
      { hd with
        tables := fun t ht => (Roster.mem_values_insert ht).elim (hd.tables t) fun ht => ht ▸ hm.data hk }
  | statement =>
    refine hd.addPlace.putItem ?_ _ _
    exact trivial
  | script =>
    refine hd.addPlace.addPlace.putItem ?_ _ _
    exact hn.scriptHead hid
  | param =>
    refine hd.putItem ?_ _ _
    exact hn.paramValue hl
  | @named _ target _ place _ =>
    have hadded : (doc.addReference target (Reference.ofName b.node.targetCalled (b.node.get .name))).Bears M :=
      { hd with }
    refine hadded.putItem ?_ _ _
    exact trivial

end

namespace Evaluating

variable {M : Entries → Prop} {scope : NodeScope} {e e' : Evaluation} {forest : List (Tree Nat)}

/-- An id that is given to a regular node is regular. -/
theorem regular_of_request {node : Node} {handle : Handle} {id : Value} (h : request node handle e = (.ok id, e'))
    (hn : node.Regular) (hi : ∀ n id, e.idOf? n = some id → Value.Regular id) :
    id.Regular ∧ ∀ n id, e'.idOf? n = some id → Value.Regular id := by
  rcases request_eq node handle e with ⟨authored, ha, heq⟩ | heq
  · rw [heq] at h
    have hauthored : authored.Regular := by
      unfold Node.requestedId? at ha
      split at ha
      all_goals cases ha
      all_goals first | exact hn .id | exact .null
    have hid : id.Regular := by
      have hgiven := h
      rw [instanceId_apply] at hgiven
      split at hgiven
      · rw [eq_of_instanceId_eq_ok h ‹_›]
        exact hauthored
      · split at hgiven
        · next hkept =>
          cases hgiven
          exact hi _ _ hkept
        · split at hgiven
          · cases hgiven
            exact .str _
          · cases hgiven
    refine ⟨hid, fun n id' hn' => ?_⟩
    rw [idOf?_of_instanceId_eq_ok h] at hn'
    split at hn'
    · cases hn'
      exact hid
    · exact hi n id' hn'
  · rw [heq] at h
    cases h
    exact ⟨.null, hi⟩

/-- What goes on around regular nodes: the scene and the ids that nodes keep are regular, and so is the document. -/
structure Bearing (M : Entries → Prop) (scope : NodeScope) (e : Evaluation) : Prop where
  scene : ∀ id, scope.get .sceneId = some id → Value.Regular id
  ids : ∀ n id, e.idOf? n = some id → Value.Regular id
  document : e.document.Bears M

/-- A visit of a regular node leaves everything regular, the scene that its children stand on included. -/
theorem Bearing.visit (h : Bearing M scope e) {mark : Nat} {node : Node} {literals : List Value}
    {out : Option NodeScope} {e₁ : Evaluation}
    (hv : Evaluating.visit mark node literals scope e = (.ok out, e₁)) (hM : Showable M) (hn : node.Regular)
    (hm : node.Hands M) (hl : ∀ v ∈ literals, v.Regular) :
    Bearing M scope e₁ ∧ ∀ inner, out = some inner → Bearing M inner e₁ := by
  obtain ⟨id, e₀, hr, heffect, he⟩ := effect_of_visit hv
  obtain ⟨hid, hids⟩ := regular_of_request hr hn h.ids
  have hids : ∀ n id, e₁.idOf? n = some id → Value.Regular id := by
    rw [he]
    exact hids
  have hdocument := heffect.bears hM hn hm hid (by rw [Tree.literals_map_literal]; exact hl) h.scene h.document
  refine ⟨⟨h.scene, hids, hdocument⟩, ?_⟩
  rintro inner rfl
  refine ⟨fun id' hs => ?_, hids, hdocument⟩
  rw [heffect.get_sceneId] at hs
  split at hs
  · cases hs
    exact hid
  · exact h.scene id' hs

/-- The plain values among regular trees are regular. -/
theorem regular_literals {forest : List (Tree Nat)} (h : Tree.AllRegular forest) :
    ∀ v ∈ Tree.literals forest, v.Regular := by
  induction forest with
  | nil => exact List.forall_mem_nil _
  | cons t rest ih =>
    cases t with
    | node => exact ih h.2
    | literal v => exact List.forall_mem_cons.mpr ⟨h.1, ih h.2⟩

/-- Everything stays regular while regular trees are evaluated. -/
theorem Evaluates.bearing (h : Evaluates scope forest e e') (hM : Showable M) (hr : Tree.AllRegular forest)
    (hm : ∀ n ∈ Tree.nodesOf forest, n.2.Hands M) (hb : Bearing M scope e) : Bearing M scope e' := by
  induction h with
  | nil => exact hb
  | literal v _ ih => exact ih hr.2 hm hb
  | leaf hv _ _ ih =>
    obtain ⟨⟨hn, hchildren⟩, hrest⟩ := hr
    obtain ⟨hself, hm⟩ := List.forall_mem_cons.mp hm
    have hvisit := hb.visit hv hM hn hself (regular_literals hchildren)
    exact ih hrest (fun n hn => hm n (List.mem_append_right _ hn)) hvisit.1
  | branch hv _ _ ihc ihr =>
    obtain ⟨⟨hn, hchildren⟩, hrest⟩ := hr
    obtain ⟨hself, hm⟩ := List.forall_mem_cons.mp hm
    obtain ⟨hout, hinner⟩ := hb.visit hv hM hn hself (regular_literals hchildren)
    have hbelow := ihc hchildren (fun n hn => hm n (List.mem_append_left _ hn)) (hinner _ rfl)
    exact ihr hrest (fun n hn => hm n (List.mem_append_right _ hn)) ⟨hout.scene, hbelow.ids, hbelow.document⟩

/-- Everything is regular when an evaluation begins. -/
theorem bearing_begun (hM : Showable M) (supply : IdSupply) (notice : Notice) :
    Bearing M .root (begun supply notice) where
  scene := fun id hs => by
    rw [get_root_of_ne (by decide)] at hs
    cases hs
  ids := fun _ _ h => by cases h
  document := .empty hM

end Evaluating

end SceneTree
