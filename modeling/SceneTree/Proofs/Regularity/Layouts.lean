import SceneTree.Proofs.Integrity.Readings
import SceneTree.Proofs.Regularity.Documents

/-!
# Layouts of regular documents

All that is read from a regular document is regular, so that there is only one thing that can go wrong with its layout:
that a name in a script finds nothing. The layout can be written whatever the keys of its maps are.
-/

namespace SceneTree

namespace Attempt

variable {α β : Type} {P : α → Prop} {Q : β → Prop}

/-- A reading has a result with a property, unless a name finds nothing. -/
def Yields (P : α → Prop) (x : Attempt Readings α) : Prop :=
  ∀ readings, (∃ a, (x readings).1 = .ok a ∧ P a) ∨ ∃ kind name, (x readings).1 = .error (.unresolved kind name)

theorem Yields.pure {a : α} (h : P a) : Yields P (pure a) := fun _ => .inl ⟨a, rfl, h⟩

theorem Yields.ofExcept {x : Except Fault α} {a : α} (hx : x = .ok a) (h : P a) : Yields P (ofExcept x) :=
  fun _ => .inl ⟨a, hx, h⟩

/-- Readings in a row yield what the last one yields of the results before it. -/
theorem Yields.bind {x : Attempt Readings α} {f : α → Attempt Readings β} (h : x.Yields P)
    (hf : ∀ a, P a → (f a).Yields Q) : (x >>= f).Yields Q := by
  intro readings
  rw [bind_apply]
  rcases hx : x readings with ⟨fault | a, readings'⟩
  · rcases h readings with ⟨a, ha, -⟩ | ⟨kind, name, he⟩
    · rw [hx] at ha
      cases ha
    · rw [hx] at he
      exact .inr ⟨kind, name, congrArg Except.error (Except.error.inj he)⟩
  · rcases h readings with ⟨a', ha, hP⟩ | ⟨kind, name, he⟩
    · rw [hx] at ha
      cases ha
      exact hf a hP readings'
    · rw [hx] at he
      cases he

end Attempt

namespace Value

/-- A regular value is its own encoding. -/
theorem Regular.yields {v : Value} (h : v.Regular) : (encode v).Yields Regular :=
  fun readings => .inl ⟨v, by rw [encode_of_isJson v h.isJson], h⟩

theorem encodeItems_yields {vs : List Value} (h : ∀ v ∈ vs, (encode v).Yields Regular) :
    (encodeItems vs).Yields fun ws => ∀ w ∈ ws, w.Regular := by
  induction vs with
  | nil =>
    rw [encodeItems]
    exact .pure (List.forall_mem_nil _)
  | cons v rest ih =>
    obtain ⟨hv, hrest⟩ := List.forall_mem_cons.mp h
    rw [encodeItems]
    exact .bind hv fun w hw => .bind (ih hrest) fun ws hws => .pure (List.forall_mem_cons.mpr ⟨hw, hws⟩)

/-- Slots are encoded as lists. -/
theorem encode_slot_yields {vs : List Value} (h : ∀ v ∈ vs, (encode v).Yields Regular) :
    (encode (.slot vs)).Yields Regular := by
  rw [encode]
  exact .bind (encodeItems_yields h) fun ws hws => .pure (.list hws)

/-- Blocks of a script are encoded as maps. -/
theorem encode_script_yields {head : ScriptHead} {params statements : Value}
    (hh : (head.layout .null .null).Regular) (hp : (encode params).Yields Regular)
    (hs : (encode statements).Yields Regular) : (encode (head.toRecord params statements)).Yields Regular := by
  unfold ScriptHead.toRecord
  rw [encode]
  exact .bind hp fun p hp => .bind hs fun s hs =>
    .bind (P := fun extensions => extensions = head.extensions) (.ofExcept rfl rfl) fun extensions he =>
      .pure (he ▸ ScriptHead.regular_layout hh hp hs)

/-- Lookups among regular ids are encoded as regular ids. -/
theorem encode_lookup_yields {origin : Origin} {kind : String} {name : Value} {cs : Candidates}
    (h : ∀ p ∈ cs, p.1.Regular) : (encode (.lookup origin kind name cs)).Yields Regular := by
  rw [encode, readLookup]
  refine .bind (P := Regular) ?_ fun id hid => ?_
  · intro readings
    change (∃ id, cs.resolve kind name = .ok id ∧ id.Regular) ∨ ∃ k n, cs.resolve kind name = .error (.unresolved k n)
    unfold Candidates.resolve
    cases hf : cs.firstNamed? name with
    | none => exact .inr ⟨kind, name, rfl⟩
    | some id =>
      obtain ⟨p, hp, rfl⟩ := Option.map_eq_some_iff.mp hf
      exact .inl ⟨p.1, rfl, h p (List.mem_of_find?_eq_some hp)⟩
  · cases origin with
    | given => exact .pure hid
    | param index => exact fun readings => .inl ⟨id, rfl, hid⟩

/-- What is encoded as a regular value has a text. -/
theorem dump_yields {v : Value} (h : (encode v).Yields Regular) : v.dump.Yields fun _ => True :=
  .bind h fun w hw => by
    obtain ⟨s, hs⟩ := JsonText.text_of_isJson .compact hw.isJson rfl rfl
    exact .ofExcept hs trivial

/-- A map that can be written is its own encoding. -/
theorem encode_of_presentable {entries : Entries} (h : Presentable entries) (readings : Readings) :
    encode (.map entries) readings = (.ok (.map entries), readings) := by
  have hentries : encodeEntries entries readings = (.ok entries, readings) := by
    induction entries with
    | nil =>
      rw [encodeEntries]
      rfl
    | cons p rest ih =>
      obtain ⟨⟨-, hp⟩, hrest⟩ := List.forall_mem_cons.mp h
      rw [encodeEntries, Attempt.bind_apply_of_ok (encode_of_isJson p.2 hp.isJson readings),
        Attempt.bind_apply_of_ok (ih hrest)]
      rfl
  rw [encode, Attempt.bind_apply_of_ok hentries]
  rfl

end Value

namespace JsonText

variable {layout : Layout} {level : Nat}

/-- Entries can be written if their keys have texts and their values can be written. -/
theorem exists_writeEntries {entries : Entries}
    (h : ∀ p ∈ entries, (∃ chars, keyText p.1 = .ok chars) ∧ ∃ chars, write layout level p.2 = .ok chars) :
    ∃ chars, writeEntries layout level entries = .ok chars := by
  induction entries with
  | nil => exact ⟨_, by rw [writeEntries]⟩
  | cons p rest ih =>
    obtain ⟨⟨⟨key, hk⟩, value, hv⟩, hrest⟩ := List.forall_mem_cons.mp h
    obtain ⟨tail, ht⟩ := ih hrest
    rw [writeEntries, hk, hv, ht]
    exact ⟨_, rfl⟩

/-- A map can be written if its entries can be. -/
theorem exists_write_map {entries : Entries}
    (h : ∀ p ∈ entries, (∃ chars, keyText p.1 = .ok chars) ∧ ∃ chars, write layout (level + 1) p.2 = .ok chars) :
    ∃ chars, write layout level (.map entries) = .ok chars := by
  cases entries with
  | nil => exact ⟨_, by rw [write]⟩
  | cons p rest =>
    obtain ⟨inner, hi⟩ := exists_writeEntries h
    rw [write, hi]
    · exact ⟨_, rfl⟩
    · nofun

/-- A map from texts can be written if its values can be. -/
theorem exists_write_object {entries : List (String × Value)}
    (h : ∀ p ∈ entries, ∃ chars, write layout (level + 1) p.2 = .ok chars) :
    ∃ chars, write layout level (.object entries) = .ok chars :=
  exists_write_map fun q hq => by
    obtain ⟨p, hp, rfl⟩ := List.mem_map.mp hq
    exact ⟨⟨_, rfl⟩, h p hp⟩

/-- A list can be written if its items can be. -/
theorem exists_write_list {items : List Value}
    (h : ∀ v ∈ items, ∃ chars, write layout (level + 1) v = .ok chars) :
    ∃ chars, write layout level (.list items) = .ok chars := by
  have hitems : ∀ items : List Value, (∀ v ∈ items, ∃ chars, write layout (level + 1) v = .ok chars) →
      ∃ chars, writeItems layout (level + 1) items = .ok chars := by
    intro items h
    induction items with
    | nil => exact ⟨_, by rw [writeItems]⟩
    | cons v rest ih =>
      obtain ⟨⟨head, hv⟩, hrest⟩ := List.forall_mem_cons.mp h
      obtain ⟨tail, ht⟩ := ih hrest
      cases rest with
      | nil => exact ⟨head, by rw [writeItems, hv]⟩
      | cons w rest =>
        rw [writeItems, hv, ht]
        · exact ⟨_, rfl⟩
        · nofun
  cases items with
  | nil => exact ⟨_, by rw [write]⟩
  | cons v rest =>
    obtain ⟨inner, hi⟩ := hitems _ h
    rw [write, hi]
    · exact ⟨_, rfl⟩
    · nofun

/-- A map whose keys have texts and whose values are regular can be written. -/
theorem exists_write_of_presentable {entries : Entries} (h : Value.Presentable entries) :
    ∃ chars, write layout level (.map entries) = .ok chars :=
  exists_write_map fun p hp => ⟨(h p hp).1, write_of_isJson layout _ p.2 (h p hp).2.isJson⟩

end JsonText

namespace Document

open Value

variable {M : Entries → Prop} {doc : Document}

/-- The objects of a regular document are regular. -/
theorem Bears.of_mem_objectEntries (h : doc.Bears M) : ∀ object ∈ doc.objectEntries, object.Regular := by
  intro object ho
  obtain ⟨index, -, hi⟩ := List.mem_filterMap.mp ho
  exact h.objects index object hi

/-- The functions of a regular document are regular. -/
theorem Bears.of_mem_functionEntries (h : doc.Bears M) : ∀ function ∈ doc.functionEntries, function.Regular := by
  intro function hf
  obtain ⟨index, -, hi⟩ := List.mem_filterMap.mp hf
  exact h.functions index function hi

/-- The ids that a name may mean are regular. -/
theorem Bears.candidates (h : doc.Bears M) (target : Target) : ∀ p ∈ doc.candidates target, p.1.Regular := by
  intro p hp
  cases target with
  | globals =>
    obtain ⟨e, he, rfl⟩ := List.mem_map.mp hp
    exact (h.globals e he).head
  | objects =>
    obtain ⟨object, ho, rfl⟩ := List.mem_map.mp hp
    exact (h.of_mem_objectEntries object ho).id
  | pictures index =>
    rw [Document.candidates] at hp
    cases ho : doc.objectCells.get? index with
    | none =>
      rw [ho] at hp
      exact absurd hp List.not_mem_nil
    | some object =>
      rw [ho] at hp
      obtain ⟨e, he, rfl⟩ := List.mem_map.mp hp
      exact ((h.objects index object ho).pictures e he).head
  | sounds index =>
    rw [Document.candidates] at hp
    cases ho : doc.objectCells.get? index with
    | none =>
      rw [ho] at hp
      exact absurd hp List.not_mem_nil
    | some object =>
      rw [ho] at hp
      obtain ⟨e, he, rfl⟩ := List.mem_map.mp hp
      exact ((h.objects index object ho).sounds e he).head

/-- What a place of a regular document holds is regular when it is read. -/
theorem Bears.partValues_yields (h : doc.Bears M) (hh : doc.Honest) (depth place : Nat) :
    ∀ v ∈ doc.partValues depth place, (encode v).Yields Regular := by
  induction depth generalizing place with
  | zero => exact List.forall_mem_nil _
  | succ depth ih =>
    intro v hv
    obtain ⟨item, hitem, rfl⟩ := List.mem_map.mp hv
    have hitem := h.items hitem
    cases item with
    | value v => exact Value.Regular.yields hitem
    | block parts => exact encode_slot_yields (ih parts)
    | script head params statements =>
      exact encode_script_yields hitem (encode_slot_yields (ih params)) (encode_slot_yields (ih statements))
    | reference index =>
      change (encode (doc.referenceValue index)).Yields Regular
      cases hr : doc.references.get? index with
      | none =>
        simp only [referenceValue, hr]
        exact Value.Regular.null.yields
      | some p =>
        have hreads : (doc.referenceValue index).Reads doc.Right (.lookup (.given 0) _ _ _) := hh.reads hr rfl
        intro readings
        rw [hreads.outcome readings readings]
        exact encode_lookup_yields (h.candidates _) readings

/-- A place of a regular document is encoded as a regular list. -/
theorem Bears.slotValue_yields (h : doc.Bears M) (hh : doc.Honest) (place : Nat) :
    (encode (doc.slotValue place)).Yields Regular :=
  encode_slot_yields (h.partValues_yields hh _ place)

/-- A regular object is laid out as a regular value. -/
theorem Bears.objectLayout_yields (h : doc.Bears M) (hh : doc.Honest) {object : ObjectEntry} (ho : object.Regular) :
    (doc.objectLayout object).Yields Regular := by
  refine .bind (dump_yields (h.slotValue_yields hh _)) fun script _ => .pure ?_
  obtain ⟨hfirst, hoptional, -, -, -, hlast⟩ := ObjectHead.regular_layout_iff.mp ho.head
  exact ObjectHead.regular_layout_iff.mpr
    ⟨hfirst, hoptional, .list_map ho.pictures, .list_map ho.sounds, ho.entity, hlast⟩

/-- A regular function is laid out as a regular value. -/
theorem Bears.functionLayout_yields (h : doc.Bears M) (hh : doc.Honest) {function : FunctionEntry}
    (hf : function.Regular) : (doc.functionLayout function).Yields Regular := by
  refine .bind (dump_yields (h.slotValue_yields hh _)) fun content _ => .pure ?_
  have hlocals : (Value.list (function.locals.values.map LocalVariableEntry.layout)).Regular := .list_map hf.locals
  have hhead := hf.head
  split <;> simp_all [FunctionHead.layout, regular_object_iff, Value.Regular.str]

theorem layoutEach_yields {α : Type} {P : Value → Prop} {layout : α → Attempt Readings Value} {as : List α}
    (h : ∀ a ∈ as, (layout a).Yields P) : (layoutEach layout as).Yields fun vs => ∀ v ∈ vs, P v := by
  induction as with
  | nil => exact .pure (List.forall_mem_nil _)
  | cons a rest ih =>
    obtain ⟨ha, hrest⟩ := List.forall_mem_cons.mp h
    exact .bind ha fun v hv => .bind (ih hrest) fun vs hvs => .pure (List.forall_mem_cons.mpr ⟨hv, hvs⟩)

/-- The layout of a document from the layouts of its objects and functions. -/
def layoutOf (doc : Document) (objects functions : List Value) : Value :=
  doc.head.layout (doc.scenes.values.map SceneEntry.layout) objects (doc.globals.values.map VariableEntry.layout)
    (doc.messages.values.map MessageEntry.layout) functions (doc.tables.values.map .map)

/-- A regular document is laid out from regular layouts of its objects and functions. -/
theorem Bears.layout_yields (h : doc.Bears M) (hM : ∀ entries, M entries → Presentable entries) (hh : doc.Honest) :
    doc.layout.Yields fun v => ∃ objects functions, (∀ w ∈ objects, w.Regular) ∧ (∀ w ∈ functions, w.Regular) ∧
      v = doc.layoutOf objects functions := by
  have htables : ∀ tables : List Entries, (∀ table ∈ tables, Presentable table) →
      (layoutEach (fun table => encode (.map table)) tables).Yields fun vs => vs = tables.map .map := by
    intro tables htables
    induction tables with
    | nil => exact .pure rfl
    | cons table rest ih =>
      obtain ⟨ht, hrest⟩ := List.forall_mem_cons.mp htables
      refine .bind (P := fun v => v = .map table) ?_ fun v hv => .bind (ih hrest) fun vs hvs => ?_
      · exact fun readings => .inl ⟨_, congrArg Prod.fst (encode_of_presentable ht readings), rfl⟩
      · exact .pure (by rw [hv, hvs, List.map_cons])
  refine .bind (layoutEach_yields fun o ho => h.objectLayout_yields hh (h.of_mem_objectEntries o ho))
    fun objects hobjects => ?_
  refine .bind (layoutEach_yields fun f hf => h.functionLayout_yields hh (h.of_mem_functionEntries f hf))
    fun functions hfunctions => ?_
  refine .bind (htables _ fun t ht => hM t (h.tables t ht)) fun tables ht => .pure ?_
  exact ⟨objects, functions, hobjects, hfunctions, ht ▸ rfl⟩

/-- With regular maps the layout of a document is regular. -/
theorem Bears.regular_layoutOf (h : doc.Bears fun entries => (Value.map entries).Regular)
    {objects functions : List Value} (ho : ∀ v ∈ objects, v.Regular) (hf : ∀ v ∈ functions, v.Regular) :
    (doc.layoutOf objects functions).Regular := by
  have hhead := h.head
  simp only [layoutOf, ProjectHead.layout, regular_object_iff, List.forall_mem_cons] at hhead ⊢
  obtain ⟨hd, hname, hspeed, -, -, -, -, -, -, -, hrest⟩ := hhead
  exact ⟨hd, hname, hspeed, h.interface, .list_map h.scenes, .list ho, .list_map h.globals, .list_map h.messages,
    .list hf, .list_map h.tables, hrest⟩

/-- Whatever the keys of its maps are, the layout of a document can be written. -/
theorem Bears.exists_text (h : doc.Bears M) (hM : ∀ entries, M entries → Presentable entries)
    {objects functions : List Value} (ho : ∀ v ∈ objects, v.Regular) (hf : ∀ v ∈ functions, v.Regular) :
    ∃ s, JsonText.text .spaced (doc.layoutOf objects functions) = .ok s := by
  have hregular {v : Value} (hv : v.Regular) : ∃ chars, JsonText.write .spaced 1 v = .ok chars :=
    JsonText.write_of_isJson _ _ v hv.isJson
  have hinterface : ∃ chars, JsonText.write .spaced 1 (.map doc.head.interface) = .ok chars :=
    JsonText.exists_write_of_presentable (hM _ h.interface)
  have htables : ∃ chars, JsonText.write .spaced 1 (.list (doc.tables.values.map .map)) = .ok chars :=
    JsonText.exists_write_list fun v hv => by
      obtain ⟨table, ht, rfl⟩ := List.mem_map.mp hv
      exact JsonText.exists_write_of_presentable (hM _ (h.tables table ht))
  have hhead := h.head
  simp only [ProjectHead.layout, regular_object_iff, List.forall_mem_cons] at hhead
  obtain ⟨-, hname, hspeed, -, -, -, -, -, -, -, h₁, h₂, h₃, h₄, h₅, -⟩ := hhead
  obtain ⟨chars, hc⟩ : ∃ chars, JsonText.write .spaced 0 (doc.layoutOf objects functions) = .ok chars := by
    refine JsonText.exists_write_object ?_
    simp only [List.forall_mem_cons]
    exact ⟨hregular hname, hregular hspeed, hinterface, hregular (.list_map h.scenes), hregular (.list ho),
      hregular (.list_map h.globals), hregular (.list_map h.messages), hregular (.list hf), htables, hregular h₁,
      hregular h₂, hregular h₃, hregular h₄, hregular h₅, List.forall_mem_nil _⟩
  exact ⟨String.ofList chars, by rw [JsonText.text, hc]; rfl⟩

end Document

end SceneTree
