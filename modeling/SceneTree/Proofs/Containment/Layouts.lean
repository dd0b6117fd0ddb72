import SceneTree.Proofs.Containment.Scripts

/-!
# Layouts of typed trees

All that a typed tree describes is laid out as plain data: every entry by itself, and objects and functions if the names
in their scripts are names of something.
-/

namespace SceneTree

open Value

section

variable {b : Branch} {above : List Branch} {forest : List (Tree Value)} {names names₀ : Names}

namespace Branch.Typed

/-- A typed scene is laid out as plain data. -/
theorem isJson_scene (h : b.Typed) : (b.node.sceneEntry b.id).layout.isJson = true := by
  simp only [SceneEntry.layout, Node.sceneEntry, isJson_object_cons, isJson_object_nil, h.id.isJson, h.node.json,
    and_self]

/-- A typed message is laid out as plain data. -/
theorem isJson_message (h : b.Typed) : (b.node.messageEntry b.id).layout.isJson = true := by
  simp only [MessageEntry.layout, Node.messageEntry, isJson_object_cons, isJson_object_nil, h.id.isJson, h.node.json,
    and_self]

/-- A typed picture is laid out as plain data. -/
theorem isJson_picture (h : b.Typed) : (b.node.pictureEntry b.id).layout.isJson = true := by
  simp only [PictureEntry.layout, Node.pictureEntry, isJson_object_cons, isJson_object_nil, h.id.isJson, h.node.json,
    and_self]

/-- A typed sound is laid out as plain data. -/
theorem isJson_sound (h : b.Typed) : (b.node.soundEntry b.id).layout.isJson = true := by
  simp only [SoundEntry.layout, Node.soundEntry, isJson_object_cons, isJson_object_nil, h.id.isJson, h.node.json,
    and_self]

/-- A typed variable is laid out as plain data. -/
theorem isJson_variable (h : b.Typed) {owner : Value} (ho : owner.isJson = true) :
    (b.node.variableEntry b.id owner).layout.isJson = true := by
  simp only [VariableEntry.layout, Node.variableEntry, isJson_object_cons, isJson_object_nil, h.id.isJson, h.node.json,
    ho, and_self]

/-- A typed local variable is laid out as plain data. -/
theorem isJson_local (h : b.Typed) (function : Value) : (b.node.localEntry b.id function).layout.isJson = true := by
  simp only [LocalVariableEntry.layout, Node.localEntry, isJson_object_cons, isJson_object_nil, isJson_str,
    h.node.json, and_self]

/-- What only a text box shows of a typed object is plain. -/
theorem isJson_ofTextBox (h : b.Typed) (field : Field) : (b.node.ofTextBox field).isJson = true := by
  unfold Node.ofTextBox
  split
  · exact h.node.json field
  · rfl

/-- The looks of a typed object are laid out as plain data. -/
theorem isJson_looks (h : b.Typed) : b.node.looks.layout.isJson = true := by
  have hfont : (if (b.node.get .font).isNull then .str "undefinedpx " else b.node.get .font).isJson = true := by
    split
    · rfl
    · exact h.node.json .font
  have hstyling : ∀ p ∈ b.node.looks.styling, p.2.isJson = true := by
    rw [← isJson_object]
    simp only [Entity.styling, Node.looks, isJson_object_cons, isJson_object_nil, h.isJson_ofTextBox, and_self]
  unfold Entity.layout
  rw [isJson_object_append]
  refine ⟨?_, isJson_object.mpr fun p hp => hstyling p (List.mem_of_mem_filter hp)⟩
  simp only [Node.looks, isJson_object_cons, isJson_object_nil, h.node.json, hfont, and_self]

end Branch.Typed

namespace Branch

variable {P : List Branch → Branch → Prop}

/-- A picture of an object is the entry of a node below it. -/
theorem of_mem_pictures (hc : Tree.EverywhereIn P above b.children) {e : PictureEntry} (he : e ∈ b.pictures) :
    ∃ above' b', P above' b' ∧ e = b'.node.pictureEntry b'.id := by
  obtain ⟨c, above', b', hb, -, hp⟩ := hc.of_mem_any he
  obtain ⟨-, hentry⟩ := Option.ite_none_right_eq_some.mp hp
  exact ⟨above', b', hb, (Option.some_inj.mp hentry).symm⟩

/-- A sound of an object is the entry of a node below it. -/
theorem of_mem_sounds (hc : Tree.EverywhereIn P above b.children) {e : SoundEntry} (he : e ∈ b.sounds) :
    ∃ above' b', P above' b' ∧ e = b'.node.soundEntry b'.id := by
  obtain ⟨c, above', b', hb, -, hp⟩ := hc.of_mem_any he
  obtain ⟨-, hentry⟩ := Option.ite_none_right_eq_some.mp hp
  exact ⟨above', b', hb, (Option.some_inj.mp hentry).symm⟩

/-- A local variable of a function is the entry of a node below it. -/
theorem of_mem_locals (hc : Tree.EverywhereIn P above b.children) {e : LocalVariableEntry} (he : e ∈ b.locals) :
    ∃ above' b', P above' b' ∧ e = b'.node.localEntry b'.id b.id := by
  obtain ⟨c, above', b', hb, -, hp⟩ := hc.of_mem_any he
  obtain ⟨-, hentry⟩ := Option.ite_none_right_eq_some.mp hp
  exact ⟨above', b', hb, (Option.some_inj.mp hentry).symm⟩

/-- An object that shows a picture shows one of its own. -/
theorem selectedPicture_mem (b : Branch) :
    b.selectedPicture = .null ∨ ∃ e ∈ b.pictures, e.id = b.selectedPicture := by
  have hpicture : ∀ own a id, selectedPicture? own a = some id → ∃ e, picture? own a = some e ∧ e.id = id := by
    intro own a id h
    obtain ⟨⟨hown, hk, -⟩, hid⟩ := Option.ite_none_right_eq_some.mp h
    exact ⟨_, if_pos ⟨hown, hk⟩, Option.some_inj.mp hid⟩
  unfold selectedPicture
  rcases List.eq_nil_or_concat (Tree.gatherOf ownObjectBelow selectedPicture? true b.children) with hn | ⟨init, id, hl⟩
  · rw [hn]
    exact .inl rfl
  · have hid : id ∈ Tree.gatherOf ownObjectBelow selectedPicture? true b.children := by
      rw [hl, List.concat_eq_append]
      exact List.mem_append_right _ List.mem_cons_self
    rw [hl, List.concat_eq_append, List.getLastD_concat]
    exact .inr (Tree.exists_mem_gatherOf (Q := fun id (e : PictureEntry) => e.id = id) hpicture hid)

/-- The picture that a typed object shows is plain. -/
theorem isJson_selectedPicture (hc : Tree.EverywhereIn (fun _ => Branch.Typed) above b.children) :
    b.selectedPicture.isJson = true := by
  rcases b.selectedPicture_mem with h | ⟨e, he, h⟩
  · rw [h]
    rfl
  · obtain ⟨-, b', hb', rfl⟩ := of_mem_pictures hc he
    rw [← h]
    exact hb'.id.isJson

end Branch

/-- Names that are plain around a node are plain below it if the ids there are. -/
theorem Names.Plain.below (h : names.Plain)
    (hc : Tree.EverywhereIn (fun _ b => b.id.isJson = true) above b.children) : (b.namesBelow names).Plain := by
  unfold Branch.namesBelow
  split
  · refine ⟨h.globals, h.objects, ?_, ?_⟩
    · intro p hp
      obtain ⟨e, he, rfl⟩ := List.mem_map.mp hp
      obtain ⟨-, b', hb', rfl⟩ := Branch.of_mem_pictures hc he
      exact hb'
    · intro p hp
      obtain ⟨e, he, rfl⟩ := List.mem_map.mp hp
      obtain ⟨-, b', hb', rfl⟩ := Branch.of_mem_sounds hc he
      exact hb'
  · exact h

/-- The names in a forest are plain if the ids in it are. -/
theorem Tree.names_plain (h : Tree.EverywhereIn (fun _ b => b.id.isJson = true) above forest) :
    (Tree.names forest).Plain := by
  refine ⟨?_, ?_, List.forall_mem_nil _, List.forall_mem_nil _⟩
  · intro p hp
    obtain ⟨-, b, hb, hv⟩ := h.of_mem_each hp
    obtain ⟨-, hname⟩ := Option.ite_none_right_eq_some.mp hv
    cases hname
    exact hb
  · intro p hp
    obtain ⟨-, b, hb, hv⟩ := h.of_mem_each hp
    obtain ⟨-, hname⟩ := Option.ite_none_right_eq_some.mp hv
    cases hname
    exact hb

/-- A field that may be left out is plain if its value is. -/
theorem isJson_optional {key : String} {v : Value} (h : v.isJson = true) :
    (Value.object (optional key v)).isJson = true := by
  unfold optional
  split
  · rfl
  · exact isJson_object_cons.mpr ⟨h, rfl⟩

open Branch

/-- A typed object is laid out as plain data if the names below it are names of something. -/
theorem Branch.Typed.layout_object (ht : b.Typed) (hk : b.kind.isObject = true) {scene : Value}
    (hscene : scene.isJson = true) (hplain : names₀.Plain)
    (hc : Tree.EverywhereIn (fun above b => b.Typed ∧ b.Resolves names₀ above) (b :: above) b.children) :
    ∃ v, (b.object names₀ scene).layout = .ok v ∧ v.isJson = true := by
  have hc' := hc.mp fun _ _ h => h.1
  have hnames : b.namesBelow names₀ = namesBelowAll names₀ (b :: above) := (namesBelow_namesBelowAll hk).symm
  have hbelow := hplain.below (hc'.mp fun _ _ h => h.id.isJson)
  obtain ⟨s, hs⟩ := (Encodes.slot (Tree.parts_encode hc hnames hbelow).statements).dump
  have hpictures : (Value.list (b.pictures.map PictureEntry.layout)).isJson = true := by
    refine isJson_list.mpr fun v hv => ?_
    obtain ⟨e, he, rfl⟩ := List.mem_map.mp hv
    obtain ⟨-, b', hb', rfl⟩ := of_mem_pictures hc' he
    exact hb'.isJson_picture
  have hsounds : (Value.list (b.sounds.map SoundEntry.layout)).isJson = true := by
    refine isJson_list.mpr fun v hv => ?_
    obtain ⟨e, he, rfl⟩ := List.mem_map.mp hv
    obtain ⟨-, b', hb', rfl⟩ := of_mem_sounds hc' he
    exact hb'.isJson_sound
  have htext := ht.isJson_ofTextBox .text
  refine ⟨(b.object names₀ scene).toObjectHead.layout s (b.pictures.map PictureEntry.layout)
    (b.sounds.map SoundEntry.layout) b.node.looks.layout, ?_, ?_⟩
  · exact Outcome.bind_eq_ok_iff.mpr ⟨s, hs, rfl⟩
  · simp only [ObjectHead.layout, Branch.object, Node.objectHead, isJson_object_append, isJson_object_cons,
      isJson_object_nil, isJson_str, isJson_optional htext, isJson_optional (isJson_selectedPicture hc'), ht.id.isJson,
      ht.node.json, ht.isJson_looks, hscene, hpictures, hsounds, and_self]

/-- A typed function is laid out as plain data if the names below it are names of something. -/
theorem Branch.Typed.layout_function (ht : b.Typed) (hk : b.kind = .function)
    (hnames : names = namesBelowAll names₀ above) (hplain : names.Plain)
    (hc : Tree.EverywhereIn (fun above b => b.Typed ∧ b.Resolves names₀ above) (b :: above) b.children) :
    ∃ v, (b.function names).layout = .ok v ∧ v.isJson = true := by
  have hnames' : names = namesBelowAll names₀ (b :: above) := by
    rw [hnames]
    exact (namesBelow_of_not_isObject (by rw [hk]; rfl)).symm
  obtain ⟨s, hs⟩ := (Encodes.slot (Tree.parts_encode hc hnames' hplain).statements).dump
  have hlocals : (Value.list (b.locals.map LocalVariableEntry.layout)).isJson = true := by
    refine isJson_list.mpr fun v hv => ?_
    obtain ⟨e, he, rfl⟩ := List.mem_map.mp hv
    obtain ⟨-, b', hb', rfl⟩ := of_mem_locals (hc.mp fun _ _ h => h.1) he
    exact hb'.isJson_local b.id
  have hlayout : ∀ shown : Bool, ((b.function names).toFunctionHead.layout
      (if shown then some (b.locals.map LocalVariableEntry.layout) else none) s).isJson = true := by
    intro shown
    cases shown <;>
      simp only [FunctionHead.layout, Branch.function, Node.functionHead, isJson_object_append, isJson_object_cons,
        isJson_object_nil, isJson_str, ht.id.isJson, ht.node.json, hlocals, if_true, Bool.false_eq_true, if_false,
        and_self]
  exact ⟨_, Outcome.bind_eq_ok_iff.mpr ⟨s, hs, rfl⟩, hlayout _⟩

/-- What a project says of itself is plain data. -/
structure ProjectHead.Plain (head : ProjectHead) : Prop where
  name : head.name.isJson = true
  speed : head.speed.isJson = true
  interface : (Value.map head.interface).isJson = true
  expansionBlocks : (Value.list head.expansionBlocks).isJson = true
  aiUtilizeBlocks : (Value.list head.aiUtilizeBlocks).isJson = true
  hardwareLiteBlocks : (Value.list head.hardwareLiteBlocks).isJson = true
  externalModules : (Value.list head.externalModules).isJson = true
  externalModulesLite : (Value.list head.externalModulesLite).isJson = true

/-- What a typed project says of itself is plain data. -/
theorem Node.Typed.projectHead_plain {node : Node} (h : node.Typed) (hk : node.kind = .project) :
    node.projectHead.Plain := by
  have hlist : ∀ field, (Value.list (node.get field).itemList).isJson = true :=
    fun field => isJson_list.mpr (isJson_itemList (h.json field))
  have hinterface : (Value.map (node.get .interface).entryList).isJson = true := by
    obtain ⟨entries, he⟩ := h.interface hk
    have hj := h.json .interface
    rw [he] at hj ⊢
    exact hj
  exact ⟨h.json _, h.json _, hinterface, hlist _, hlist _, hlist _, hlist _, hlist _⟩

/-- What the project in a typed forest says of itself is plain data, whatever object the interface shows. -/
theorem Tree.head_plain (h : Tree.EverywhereIn (fun _ => Branch.Typed) above forest)
    (hp : Tree.each Branch.project? forest ≠ []) : (Tree.head forest).Plain := by
  unfold Tree.head
  cases hproject : (Tree.each Branch.project? forest).head? with
  | none => exact absurd (List.head?_eq_none_iff.mp hproject) hp
  | some project =>
    have hplain : project.projectHead.Plain := by
      obtain ⟨-, b, hb, hv⟩ := h.of_mem_each (List.mem_of_mem_head? hproject)
      obtain ⟨hk, hnode⟩ := Option.ite_none_right_eq_some.mp hv
      cases hnode
      exact hb.node.projectHead_plain hk
    cases hselected : (Tree.each Branch.selectedObject? forest).getLast? with
    | none => exact hplain
    | some id =>
      obtain ⟨-, b, hb, hv⟩ := h.of_mem_each (List.mem_of_mem_getLast? hselected)
      obtain ⟨-, hid⟩ := Option.ite_none_right_eq_some.mp hv
      cases hid
      exact { hplain with interface := isJson_put "object" hplain.interface hb.id.isJson }

/-- A plain project with plain collections is laid out as plain data. -/
theorem ProjectHead.Plain.isJson_layout {head : ProjectHead} (h : head.Plain)
    {scenes objects globals messages functions tables : List Value} (hs : ∀ v ∈ scenes, v.isJson = true)
    (ho : ∀ v ∈ objects, v.isJson = true) (hg : ∀ v ∈ globals, v.isJson = true) (hm : ∀ v ∈ messages, v.isJson = true)
    (hf : ∀ v ∈ functions, v.isJson = true) (ht : ∀ v ∈ tables, v.isJson = true) :
    (head.layout scenes objects globals messages functions tables).isJson = true := by
  rw [← isJson_list] at hs ho hg hm hf ht
  simp only [ProjectHead.layout, isJson_object_cons, isJson_object_nil, h.name, h.speed, h.interface,
    h.expansionBlocks, h.aiUtilizeBlocks, h.hardwareLiteBlocks, h.externalModules, h.externalModulesLite, hs, ho, hg,
    hm, hf, ht, and_self]

/-- The entries that typed nodes offer wherever they stand are laid out as plain data. -/
theorem Tree.isJson_each {α : Type} {piece : Branch → Option α} {layout : α → Value}
    (h : Tree.EverywhereIn (fun _ => Branch.Typed) above forest)
    (hp : ∀ b x, b.Typed → piece b = some x → (layout x).isJson = true) :
    ∀ v ∈ (Tree.each piece forest).map layout, v.isJson = true := by
  intro v hv
  obtain ⟨x, hx, rfl⟩ := List.mem_map.mp hv
  obtain ⟨-, b, hb, hx⟩ := h.of_mem_each hx
  exact hp b x hb hx

/-- The objects of a typed forest are laid out as plain data if all names in it are names of something. -/
theorem Tree.layout_objects
    (h : Tree.EverywhereIn (fun above b => b.Typed ∧ b.Resolves (Tree.names forest) above) [] forest) :
    ∃ vs, (Tree.plan forest).objects.mapM ObjectPlan.layout = .ok vs ∧ ∀ v ∈ vs, v.isJson = true := by
  have hplain := Tree.names_plain (h.mp fun _ _ hb => hb.1.id.isJson)
  have hstep : ∀ scene above b, scene.isJson = true → b.Typed ∧ b.Resolves (Tree.names forest) above →
      Tree.EverywhereIn (fun above b => b.Typed ∧ b.Resolves (Tree.names forest) above) (b :: above) b.children →
      (b.sceneBelow scene).isJson = true := by
    intro scene above b hscene hb _
    unfold Branch.sceneBelow
    split
    · exact hb.1.id.isJson
    · exact hscene
  refine Outcome.mapM_of_forall fun o ho => ?_
  obtain ⟨scene, above', b, hscene, hb, hc, ho⟩ :=
    h.of_mem_gatherOf (R := fun scene _ => scene.isJson = true) hstep rfl ho
  obtain ⟨hk, hobject⟩ := Option.ite_none_right_eq_some.mp ho
  cases hobject
  exact hb.1.layout_object hk hscene hplain hc

/-- The functions of a typed forest are laid out as plain data if all names in it are names of something. -/
theorem Tree.layout_functions
    (h : Tree.EverywhereIn (fun above b => b.Typed ∧ b.Resolves (Tree.names forest) above) [] forest) :
    ∃ vs, (Tree.plan forest).functions.mapM FunctionPlan.layout = .ok vs ∧ ∀ v ∈ vs, v.isJson = true := by
  have hplain := Tree.names_plain (h.mp fun _ _ hb => hb.1.id.isJson)
  have hstep : ∀ names above b, names = namesBelowAll (Tree.names forest) above ∧ names.Plain →
      b.Typed ∧ b.Resolves (Tree.names forest) above →
      Tree.EverywhereIn (fun above b => b.Typed ∧ b.Resolves (Tree.names forest) above) (b :: above) b.children →
      b.namesBelow names = namesBelowAll (Tree.names forest) (b :: above) ∧ (b.namesBelow names).Plain := by
    rintro names above b ⟨hnames, hplain⟩ _ hc
    exact ⟨by rw [hnames]; rfl, hplain.below (hc.mp fun _ _ hb => hb.1.id.isJson)⟩
  refine Outcome.mapM_of_forall fun f hf => ?_
  obtain ⟨names, above', b, ⟨hnames, hplain'⟩, hb, hc, hf⟩ :=
    h.of_mem_gatherOf (R := fun names above => names = namesBelowAll (Tree.names forest) above ∧ names.Plain) hstep
      ⟨rfl, hplain⟩ hf
  obtain ⟨hk, hfunction⟩ := Option.ite_none_right_eq_some.mp hf
  cases hfunction
  exact hb.1.layout_function hk hnames hplain' hc

/-- The tables of a typed forest are laid out as plain data. -/
theorem Tree.layout_tables (h : Tree.EverywhereIn (fun _ => Branch.Typed) [] forest) :
    ∃ vs, (Tree.plan forest).tables.mapM (fun table => ((Value.map table).encode []).1) = .ok vs ∧
      ∀ v ∈ vs, v.isJson = true := by
  refine Outcome.mapM_of_forall fun table htable => ?_
  obtain ⟨-, b, hb, htable⟩ := h.of_mem_each htable
  obtain ⟨hk, hdata⟩ := Option.ite_none_right_eq_some.mp htable
  cases hdata
  obtain ⟨entries, he⟩ := hb.node.data hk
  have hj := hb.node.json .data
  rw [he] at hj ⊢
  exact ⟨_, congrArg Prod.fst (encode_of_isJson _ hj []), hj⟩

/-- The variables of a typed forest are laid out as plain data, whatever objects they belong to. -/
theorem Tree.isJson_globals (h : Tree.EverywhereIn (fun _ => Branch.Typed) [] forest) :
    ∀ v ∈ (Tree.plan forest).globals.map VariableEntry.layout, v.isJson = true := by
  have hstep : ∀ owner above (b : Branch), owner.isJson = true → b.Typed →
      Tree.EverywhereIn (fun _ => Branch.Typed) (b :: above) b.children → (b.objectBelow owner).isJson = true := by
    intro owner above b howner hb _
    unfold Branch.objectBelow
    split
    · exact hb.id.isJson
    · exact howner
  intro v hv
  obtain ⟨e, he, rfl⟩ := List.mem_map.mp hv
  obtain ⟨owner, -, b, howner, hb, -, he⟩ :=
    h.of_mem_gatherOf (R := fun owner _ => owner.isJson = true) hstep rfl he
  obtain ⟨-, hentry⟩ := Option.ite_none_right_eq_some.mp he
  cases hentry
  exact hb.isJson_variable howner

/-- The document that a typed forest with a project describes is laid out as plain data if all names in it are names of
something. -/
theorem Tree.layout_plan
    (h : Tree.EverywhereIn (fun above b => b.Typed ∧ b.Resolves (Tree.names forest) above) [] forest)
    (hp : Tree.each Branch.project? forest ≠ []) : ∃ v, (Tree.plan forest).layout = .ok v ∧ v.isJson = true := by
  have ht := h.mp (Q := fun _ => Branch.Typed) fun _ _ hb => hb.1
  obtain ⟨objects, hobjects, hobjects'⟩ := Tree.layout_objects h
  obtain ⟨functions, hfunctions, hfunctions'⟩ := Tree.layout_functions h
  obtain ⟨tables, htables, htables'⟩ := Tree.layout_tables ht
  have hscenes : ∀ v ∈ (Tree.plan forest).scenes.map SceneEntry.layout, v.isJson = true := by
    refine Tree.isJson_each ht fun b x hb hx => ?_
    obtain ⟨-, hentry⟩ := Option.ite_none_right_eq_some.mp hx
    cases hentry
    exact hb.isJson_scene
  have hmessages : ∀ v ∈ (Tree.plan forest).messages.map MessageEntry.layout, v.isJson = true := by
    refine Tree.isJson_each ht fun b x hb hx => ?_
    obtain ⟨-, hentry⟩ := Option.ite_none_right_eq_some.mp hx
    cases hentry
    exact hb.isJson_message
  refine ⟨_, Outcome.bind_eq_ok_iff.mpr ⟨objects, hobjects, Outcome.bind_eq_ok_iff.mpr ⟨functions, hfunctions,
    Outcome.bind_eq_ok_iff.mpr ⟨tables, htables, rfl⟩⟩⟩, ?_⟩
  exact (Tree.head_plain ht hp).isJson_layout hscenes hobjects' (Tree.isJson_globals ht) hmessages hfunctions' htables'

end

end SceneTree
