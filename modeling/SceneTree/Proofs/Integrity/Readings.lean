import SceneTree.Proofs.Containment.Encoding
import SceneTree.Proofs.Identity.Census
import SceneTree.Proofs.Integrity.Homes
import SceneTree.Proofs.Integrity.Steady
import SceneTree.Proofs.Translation.Compiled

/-!
# Reading all references

A layout reads every reference in the scripts of objects and in the contents of functions. If it succeeds, each of them
has found something; and what is noted on the way is what the references come to, so that they find the same ever after.
-/

namespace SceneTree

namespace Document

variable {doc doc' : Document} {depth place index : Nat}

/-- Nothing in a document claims to come from a parameter of a script, and no reference was read: values that parameters
and tables hold are from outside. -/
structure Unused (doc : Document) : Prop where
  unread : doc.Unread
  values : ∀ {p v}, .value v ∈ doc.held p → v.isGiven = true
  tables : ∀ table ∈ doc.tables.values, (Value.map table).isGiven = true

theorem Unused.empty : Document.empty.Unused where
  unread := .empty _
  values := fun h => absurd h List.not_mem_nil
  tables := List.forall_mem_nil _

end Document

/-- An effect of a node that is given leaves everything unread and given. -/
theorem Effect.unused {scope : NodeScope} {n : Handle} {doc doc' : Document} {b : Branch} {out : Option NodeScope}
    (h : Effect scope n doc b out doc') (hn : ∀ field, (b.node.get field).isGiven = true)
    (hl : ∀ v ∈ Tree.literals b.children, v.isGiven = true) (hd : doc.Unused) : doc'.Unused := by
  refine ⟨h.unread hd.unread, ?_, ?_⟩
  · intro p v hv
    cases h with
    | object | function => exact hd.values (Document.mem_held_addPlace hv)
    | statement =>
      rcases Document.mem_held_putItem hv with hv | ⟨-, hv⟩
      · exact hd.values (Document.mem_held_addPlace hv)
      · cases hv
    | script =>
      rcases Document.mem_held_putItem hv with hv | ⟨-, hv⟩
      · exact hd.values (Document.mem_held_addPlace (Document.mem_held_addPlace hv))
      · cases hv
    | param =>
      rcases Document.mem_held_putItem hv with hv | ⟨-, hv⟩
      · exact hd.values hv
      · cases hv
        exact Node.isGiven_paramValue hn hl
    | named =>
      rcases Document.mem_held_putItem hv with hv | ⟨-, hv⟩
      · exact hd.values hv
      · cases hv
    | _ => exact hd.values hv
  · intro table ht
    cases h with
    | project => exact absurd ht List.not_mem_nil
    | table =>
      rcases Roster.mem_values_insert ht with ht | rfl
      · exact hd.tables table ht
      · exact Value.isGiven_map_entryList (hn .data)
    | _ => exact hd.tables table ht

namespace Tree

/-- Given trees have given nodes. -/
theorem AllFrom.given {shape : Shape} {forest : List (Tree Nat)} (h : AllFrom shape forest) (hg : AllGiven forest) :
    ∀ mark ∈ marksOf forest, (∀ field, ((shape mark).1.get field).isGiven = true) ∧
      ∀ v ∈ literals (shape mark).2, v.isGiven = true := by
  induction h with
  | nil => exact List.forall_mem_nil _
  | literal v _ ih =>
    rw [AllGiven] at hg
    exact ih hg.2
  | node hs _ _ ihc ihr =>
    rw [AllGiven, Given] at hg
    simp only [marksOf_node, List.forall_mem_cons, List.forall_mem_append, hs]
    exact ⟨⟨hg.1.1, hg.1.2.literals⟩, ihc hg.1.2, ihr hg.2⟩

end Tree

/-- While given trees are evaluated, nothing is read. -/
theorem Evaluating.Evaluates.unused {shape : Shape} {scope : NodeScope} {forest : List (Tree Nat)} {e e' : Evaluation}
    (h : Evaluates scope forest e e') (hs : Tree.AllFrom shape forest) (hg : Tree.AllGiven forest)
    (hd : e.document.Unused) : e'.document.Unused := by
  refine h.preserves (I := fun e => e.document.Unused) hs ?_ hd
  intro mark hm scope e out e₁ hv hd
  obtain ⟨hn, hl⟩ := hs.given hg mark hm
  obtain ⟨id, -, -, heffect, -⟩ := effect_of_visit hv
  refine heffect.unused hn ?_ hd
  rw [Tree.literals_map_literal]
  exact hl

namespace Value

variable {I : Readings → Prop}

theorem encodeItems_keeps {vs : List Value} (h : ∀ v ∈ vs, (encode v).Keeps I) : (encodeItems vs).Keeps I := by
  induction vs with
  | nil =>
    rw [encodeItems]
    exact .pure []
  | cons v rest ih =>
    obtain ⟨hv, hrest⟩ := List.forall_mem_cons.mp h
    rw [encodeItems]
    exact .bind hv fun _ => .bind (ih hrest) fun _ => .pure _

theorem encode_slot_keeps {vs : List Value} (h : ∀ v ∈ vs, (encode v).Keeps I) : (encode (.slot vs)).Keeps I := by
  rw [encode]
  exact .bind (encodeItems_keeps h) fun _ => .pure _

theorem dump_keeps {v : Value} (h : (encode v).Keeps I) : v.dump.Keeps I := .bind h fun _ => .ofExcept _

end Value

namespace Document

variable {doc : Document} {depth place index : Nat} {s s' : Readings}

/-- Every reference that is found in a place whose contents can be encoded can be encoded. -/
theorem encodable_of_mem_itemsWithin (h : ∀ v ∈ doc.partValues depth place, v.Encodable)
    (hi : .reference index ∈ doc.itemsWithin depth place) : (doc.referenceValue index).Encodable := by
  induction depth generalizing place with
  | zero => exact absurd hi List.not_mem_nil
  | succ depth ih =>
    rw [itemsWithin, List.mem_flatMap] at hi
    obtain ⟨item, hitem, hi⟩ := hi
    have hself : (doc.itemValue (doc.partValues depth) item).Encodable := h _ (List.mem_map_of_mem hitem)
    rcases List.mem_cons.mp hi with rfl | hi
    · exact hself
    · obtain ⟨q, hq, hi⟩ := List.mem_flatMap.mp hi
      suffices hinner : ∀ v ∈ doc.partValues depth q, v.Encodable from ih hinner hi
      cases item with
      | value | reference => exact absurd hq List.not_mem_nil
      | block parts =>
        rw [List.mem_singleton.mp hq]
        exact hself.slot
      | script head params statements =>
        obtain ⟨hparams, hstatements⟩ := hself.script
        rcases List.mem_cons.mp hq with rfl | hq
        · exact hparams.slot
        · rw [List.mem_singleton.mp hq]
          exact hstatements.slot

/-- When some things are laid out, each of them is. -/
theorem of_layoutEach {α : Type} {layout : α → Attempt Readings Value} {as : List α} {vs : List Value}
    (h : layoutEach layout as s = (.ok vs, s')) : ∀ a ∈ as, ∃ s₁ v s₂, layout a s₁ = (.ok v, s₂) := by
  induction as generalizing s s' vs with
  | nil => exact List.forall_mem_nil _
  | cons a rest ih =>
    rw [layoutEach] at h
    obtain ⟨v, s₁, hv, h⟩ := Attempt.bind_eq_ok_iff.mp h
    obtain ⟨vs', s₂, hrest, -⟩ := Attempt.bind_eq_ok_iff.mp h
    exact List.forall_mem_cons.mpr ⟨⟨s, v, s₁, hv⟩, ih hrest⟩

theorem layoutEach_keeps {α : Type} {I : Readings → Prop} {layout : α → Attempt Readings Value} {as : List α}
    (h : ∀ a ∈ as, (layout a).Keeps I) : (layoutEach layout as).Keeps I := by
  induction as with
  | nil => exact .pure []
  | cons a rest ih =>
    obtain ⟨ha, hrest⟩ := List.forall_mem_cons.mp h
    exact .bind ha fun _ => .bind (ih hrest) fun _ => .pure _

/-- When a document is laid out, the scripts of all objects and the contents of all functions can be encoded. -/
theorem encodable_of_layout_eq_ok {v : Value} (h : doc.layout s = (.ok v, s')) :
    ∀ place ∈ doc.outerPlaces, (doc.slotValue place).Encodable := by
  obtain ⟨objects, s₁, hobjects, h⟩ := Attempt.bind_eq_ok_iff.mp h
  obtain ⟨functions, s₂, hfunctions, -⟩ := Attempt.bind_eq_ok_iff.mp h
  intro place hplace
  rcases List.mem_append.mp hplace with hplace | hplace
  · obtain ⟨object, ho, rfl⟩ := List.mem_map.mp hplace
    obtain ⟨_, _, _, hlayout⟩ := of_layoutEach hobjects object ho
    obtain ⟨_, _, hscript, -⟩ := Attempt.bind_eq_ok_iff.mp hlayout
    obtain ⟨_, _, hdata, -⟩ := Attempt.bind_eq_ok_iff.mp hscript
    exact ⟨_, _, _, hdata⟩
  · obtain ⟨function, hf, rfl⟩ := List.mem_map.mp hplace
    obtain ⟨_, _, _, hlayout⟩ := of_layoutEach hfunctions function hf
    obtain ⟨_, _, hcontent, -⟩ := Attempt.bind_eq_ok_iff.mp hlayout
    obtain ⟨_, _, hdata, -⟩ := Attempt.bind_eq_ok_iff.mp hcontent
    exact ⟨_, _, _, hdata⟩

/-- What is noted while a place is encoded is right. -/
theorem partValues_keeps (hd : doc.Unused) (depth place : Nat) :
    ∀ v ∈ doc.partValues depth place, (Value.encode v).Keeps doc.Right := by
  induction depth generalizing place with
  | zero => exact List.forall_mem_nil _
  | succ depth ih =>
    intro v hv
    obtain ⟨item, hitem, rfl⟩ := List.mem_map.mp hv
    cases item with
    | value v => exact (Value.Reads.self (hd.values hitem)).keeps
    | block parts => exact Value.encode_slot_keeps (ih parts)
    | script head params statements =>
      unfold itemValue ScriptHead.toRecord
      rw [Value.encode]
      exact .bind (Value.encode_slot_keeps (ih params)) fun _ =>
        .bind (Value.encode_slot_keeps (ih statements)) fun _ => .bind (.ofExcept _) fun _ => .pure _
    | reference index =>
      change (Value.encode (doc.referenceValue index)).Keeps doc.Right
      cases hr : doc.references.get? index with
      | none =>
        simp only [referenceValue, hr]
        exact (Value.Reads.self rfl).keeps
      | some p =>
        have hreads : (doc.referenceValue index).Reads doc.Right (.lookup (.given 0) _ _ _) :=
          hd.unread.honest.reads hr rfl
        exact hreads.keeps

/-- What is noted while a document is laid out is right. -/
theorem layout_keeps (hd : doc.Unused) : doc.layout.Keeps doc.Right := by
  have hslot : ∀ place, (doc.slotValue place).dump.Keeps doc.Right := fun place =>
    Value.dump_keeps (Value.encode_slot_keeps (partValues_keeps hd _ place))
  refine .bind (layoutEach_keeps fun object _ => .bind (hslot object.blocks) fun _ => .pure _) fun _ => ?_
  refine .bind (layoutEach_keeps fun function _ => .bind (hslot function.content) fun _ => .pure _) fun _ => ?_
  exact .bind (layoutEach_keeps fun table ht => (Value.Reads.self (hd.tables table ht)).keeps) fun _ => .pure _

/-- A reference is encoded as what its name finds among what it may mean, also if it kept that. -/
theorem Honest.encode_referenceValue (h : doc.Honest) {target : Target} {r : Reference}
    (hr : doc.references.get? index = some (target, r)) (readings : Readings) :
    (Value.encode (doc.referenceValue index) readings).1 = (doc.candidates target).resolve r.kind r.name := by
  have hreads : (doc.referenceValue index).Reads doc.Right (.lookup (.given 0) r.kind r.name _) := h.reads hr rfl
  rw [hreads.outcome readings readings, Value.encode, readLookup]
  cases (doc.candidates target).resolve r.kind r.name <;> rfl

end Document

end SceneTree
