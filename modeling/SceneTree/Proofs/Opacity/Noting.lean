import SceneTree.Proofs.Integrity.Readings
import SceneTree.Proofs.Opacity.Veil

/-!
# What a layout notes

A layout that succeeds notes a reading of every reference in the scripts of objects and in the contents of functions, in
their order. Which references these are can be seen under a veil, and so can which of its candidates each of them finds.
So the references that keep something after the layout are the same ones, and keep the same, under the veil.
-/

namespace SceneTree

namespace Attempt

/-- With success some references have been read, in an order. -/
def Notes {α : Type} (x : Attempt Readings α) (indices : List Nat) : Prop :=
  ∀ s a s', x s = (.ok a, s') → s'.map (·.1) = s.map (·.1) ++ indices

variable {α β : Type} {x : Attempt Readings α} {indices indices' : List Nat}

theorem Notes.pure (a : α) : (pure a : Attempt Readings α).Notes [] := by
  intro s a' s' h
  cases h
  rw [List.append_nil]

theorem Notes.ofExcept (x : Except Fault α) : (ofExcept x : Attempt Readings α).Notes [] := by
  intro s a s' h
  cases (Prod.mk.inj h).2
  rw [List.append_nil]

/-- In a row the readings come one after the other. -/
theorem Notes.bind {f : α → Attempt Readings β} (hx : x.Notes indices) (hf : ∀ a, (f a).Notes indices') :
    (x >>= f).Notes (indices ++ indices') := by
  intro s b s' h
  obtain ⟨a, s₁, ha, hb⟩ := bind_eq_ok_iff.mp h
  rw [hf a _ _ _ hb, hx _ _ _ ha, List.append_assoc]

/-- What follows may read nothing. -/
theorem Notes.bind_nil {f : α → Attempt Readings β} (hx : x.Notes indices) (hf : ∀ a, (f a).Notes []) :
    (x >>= f).Notes indices := by
  have h := hx.bind hf
  rwa [List.append_nil] at h

end Attempt

namespace Value

/-- Values that nothing was put into note nothing. -/
theorem encode_notes_of_isGiven {v : Value} (h : v.isGiven = true) : (encode v).Notes [] := by
  intro s a s' hs
  have hkeeps : (encode v).Keeps (· = s) := (Reads.self h).keeps
  have hsame := hkeeps s rfl
  rw [hs] at hsame
  rw [show s' = s from hsame, List.append_nil]

/-- A collection notes what its items note. -/
theorem encodeItems_notes {α : Type} {value : α → Value} {indices : α → List Nat} {as : List α}
    (h : ∀ a ∈ as, (encode (value a)).Notes (indices a)) : (encodeItems (as.map value)).Notes (as.flatMap indices) := by
  induction as with
  | nil =>
    rw [List.map_nil, encodeItems]
    exact .pure []
  | cons a rest ih =>
    obtain ⟨ha, hrest⟩ := List.forall_mem_cons.mp h
    rw [List.map_cons, encodeItems]
    exact ha.bind fun _ => (ih hrest).bind_nil fun _ => .pure _

end Value

/-- What a reference comes to is what its name finds first. -/
theorem Candidates.firstNamed?_of_resolve {cs : Candidates} {kind : String} {name id : Value}
    (h : cs.resolve kind name = .ok id) : cs.firstNamed? name = some id := by
  unfold resolve at h
  split at h
  · next hf =>
    cases h
    exact hf
  · cases h

namespace Document

variable {doc : Document} {readings : Readings}

/-- The reference that an item is, if it is one of the document. -/
def referenceOf? (doc : Document) : Item → Option Nat
  | .reference index => if index < doc.references.size then some index else none
  | _ => none

/-- The references that are read when a place is encoded. -/
def notedIn (doc : Document) (depth place : Nat) : List Nat := (doc.itemsWithin depth place).filterMap doc.referenceOf?

/-- The references that are read when a document is laid out. -/
def noted (doc : Document) : List Nat := doc.outerPlaces.flatMap (doc.notedIn doc.parts.size)

/-- A reference notes itself. -/
theorem encode_referenceValue_notes (doc : Document) (index : Nat) :
    (Value.encode (doc.referenceValue index)).Notes (doc.referenceOf? (.reference index)).toList := by
  unfold referenceValue
  simp only [referenceOf?]
  cases hr : doc.references.get? index with
  | none =>
    have hsize : ¬ index < doc.references.size := fun hlt => by
      have := Cells.isSome_get?_iff.mpr hlt
      rw [hr] at this
      cases this
    rw [if_neg hsize]
    exact Value.encode_notes_of_isGiven rfl
  | some p =>
    have hsize : index < doc.references.size := Cells.isSome_get?_iff.mp (by rw [hr]; rfl)
    rw [if_pos hsize]
    simp only
    rw [Value.encode]
    intro s a s' h
    unfold readLookup at h
    obtain ⟨id, s₁, hid, h⟩ := Attempt.bind_eq_ok_iff.mp h
    cases (Prod.mk.inj hid).2
    cases h
    rw [List.map_append]
    rfl

/-- Encoding a place reads the references in it. -/
theorem partValues_notes (hd : doc.Unused) (depth place : Nat) :
    (Value.encode (.slot (doc.partValues depth place))).Notes (doc.notedIn depth place) := by
  induction depth generalizing place with
  | zero =>
    rw [Value.encode]
    refine .bind_nil ?_ fun _ => .pure _
    rw [partValues, Value.encodeItems]
    exact .pure []
  | succ depth ih =>
    rw [Value.encode]
    refine .bind_nil ?_ fun _ => .pure _
    have hnoted : doc.notedIn (depth + 1) place = (doc.held place).flatMap fun item =>
        (doc.referenceOf? item).toList ++ item.places.flatMap (doc.notedIn depth) := by
      unfold notedIn
      rw [itemsWithin, List.filterMap_flatMap]
      refine List.flatMap_congr fun item _ => ?_
      rw [List.filterMap_cons, List.filterMap_flatMap]
      cases doc.referenceOf? item <;> rfl
    rw [hnoted]
    refine Value.encodeItems_notes fun item hitem => ?_
    cases item with
    | value v => exact Value.encode_notes_of_isGiven (hd.values hitem)
    | block parts =>
      have hinside : (doc.referenceOf? (.block parts)).toList ++ [parts].flatMap (doc.notedIn depth) =
          doc.notedIn depth parts := List.flatMap_singleton _ _
      exact hinside ▸ ih parts
    | script head params statements =>
      have hinside : (doc.referenceOf? (.script head params statements)).toList ++
          [params, statements].flatMap (doc.notedIn depth) = doc.notedIn depth params ++ doc.notedIn depth statements :=
        congrArg (doc.notedIn depth params ++ ·) (List.flatMap_singleton _ _)
      unfold itemValue ScriptHead.toRecord
      rw [Item.places, hinside, Value.encode]
      exact (ih params).bind fun _ => (ih statements).bind_nil fun _ =>
        .bind_nil (.ofExcept _) fun _ => .pure _
    | reference index =>
      have hinside : (doc.referenceOf? (.reference index)).toList ++
          (Item.reference index).places.flatMap (doc.notedIn depth) = (doc.referenceOf? (.reference index)).toList :=
        List.append_nil _
      rw [hinside]
      exact encode_referenceValue_notes doc index

theorem layoutEach_notes {α : Type} {layout : α → Attempt Readings Value} {indices : α → List Nat} {as : List α}
    (h : ∀ a ∈ as, (layout a).Notes (indices a)) : (layoutEach layout as).Notes (as.flatMap indices) := by
  induction as with
  | nil => exact .pure []
  | cons a rest ih =>
    obtain ⟨ha, hrest⟩ := List.forall_mem_cons.mp h
    exact ha.bind fun _ => (ih hrest).bind_nil fun _ => .pure _

/-- A layout reads the references in the scripts of the objects and then those in the contents of the functions. -/
theorem layout_notes (hd : doc.Unused) : doc.layout.Notes doc.noted := by
  have hslot : ∀ place, (doc.slotValue place).dump.Notes (doc.notedIn doc.parts.size place) := fun place =>
    (partValues_notes hd _ place).bind_nil fun _ => .ofExcept _
  have hobjects : (layoutEach doc.objectLayout doc.objectEntries).Notes
      (doc.objectEntries.flatMap fun object => doc.notedIn doc.parts.size object.blocks) :=
    layoutEach_notes fun object _ => (hslot object.blocks).bind_nil fun _ => .pure _
  have hfunctions : (layoutEach doc.functionLayout doc.functionEntries).Notes
      (doc.functionEntries.flatMap fun function => doc.notedIn doc.parts.size function.content) :=
    layoutEach_notes fun function _ => (hslot function.content).bind_nil fun _ => .pure _
  have htables : (layoutEach (fun table => Value.encode (.map table)) doc.tables.values).Notes
      (doc.tables.values.flatMap fun _ => []) :=
    layoutEach_notes fun table ht => Value.encode_notes_of_isGiven (hd.tables table ht)
  have hnone : (doc.tables.values.flatMap fun _ => ([] : List Nat)) = [] := by simp
  rw [hnone] at htables
  have hnoted : doc.noted =
      (doc.objectEntries.flatMap fun object => doc.notedIn doc.parts.size object.blocks) ++
        doc.functionEntries.flatMap fun function => doc.notedIn doc.parts.size function.content := by
    unfold noted outerPlaces
    rw [List.flatMap_append, List.flatMap_map, List.flatMap_map]
  rw [hnoted]
  exact hobjects.bind fun _ => hfunctions.bind_nil fun _ => htables.bind_nil fun _ => .pure _

/-- Keeping what some references have found changes what those have found alone. -/
theorem Right.get?_keep (hr : doc.Right readings) (i : Nat) :
    (doc.keep readings).references.get? i = (doc.references.get? i).map fun (target, r) =>
      (target, { r with
        found := if i ∈ readings.map (·.1) then (doc.candidates target).firstNamed? r.name else r.found }) := by
  induction readings generalizing doc with
  | nil =>
    change doc.references.get? i = _
    cases doc.references.get? i <;> rfl
  | cons p rest ih =>
    have hcandidates : ∀ target, (doc.keep [p]).candidates target = doc.candidates target := fun target => by
      cases target <;> rfl
    have hrest : (doc.keep [p]).Right rest := by
      intro q hq outcome ho
      rw [lookUp?_keep] at ho
      exact hr q (List.mem_cons_of_mem _ hq) outcome ho
    rw [keep_cons, ih hrest]
    simp only [hcandidates, List.map_cons, List.mem_cons]
    change ((doc.references.modify p.1 fun (target, r) => (target, { r with found := some p.2 })).get? i).map _ = _
    by_cases hi : i = p.1
    · subst hi
      rw [Cells.get?_modify_self, Option.map_map]
      cases hget : doc.references.get? p.1 with
      | none => rfl
      | some q =>
        obtain ⟨target, r⟩ := q
        have hfirst := hr p List.mem_cons_self _ (by rw [lookUp?, hget]; rfl)
        simp only [Option.map_some, Function.comp_apply, true_or, if_true]
        split
        · rfl
        · rw [Candidates.firstNamed?_of_resolve hfirst]
    · rw [Cells.get?_modify_of_ne _ _ hi]
      simp only [hi, false_or]

/-- What a document in which nothing was read keeps of right readings: what the references that were read find. -/
theorem Unread.get?_keep (hu : doc.Unread) (hr : doc.Right readings) (i : Nat) :
    (doc.keep readings).references.get? i = (doc.references.get? i).map fun (target, r) =>
      (target, { r with
        found := if i ∈ readings.map (·.1) then (doc.candidates target).firstNamed? r.name else none }) := by
  rw [hr.get?_keep i]
  cases hget : doc.references.get? i with
  | none => rfl
  | some p => simp only [Option.map_some, hu i p hget]

section

variable (v : Veil) (doc : Document)

/-- The objects under a veil. -/
theorem veiled_objectEntries : (doc.veiled v).objectEntries = doc.objectEntries.map v.onObject := by
  have hget : ∀ index, (doc.veiled v).objectCells.get? index = (doc.objectCells.get? index).map v.onObject :=
    Cells.get?_map _ _
  unfold objectEntries
  rw [List.map_filterMap]
  exact List.filterMap_congr fun index _ => hget index

/-- The functions under a veil. -/
theorem veiled_functionEntries : (doc.veiled v).functionEntries = doc.functionEntries.map v.onFunction := by
  have hget : ∀ index, (doc.veiled v).functionCells.get? index = (doc.functionCells.get? index).map v.onFunction :=
    Cells.get?_map _ _
  unfold functionEntries
  rw [List.map_filterMap]
  exact List.filterMap_congr fun index _ => hget index

/-- What a reference may mean, under a veil. -/
theorem veiled_candidates (target : Target) :
    (doc.veiled v).candidates target = (doc.candidates target).map fun (id, name) => (v.onId id, name) := by
  have hget : ∀ index, (doc.veiled v).objectCells.get? index = (doc.objectCells.get? index).map v.onObject :=
    Cells.get?_map _ _
  cases target with
  | globals =>
    have hglobals : (doc.veiled v).globals.values = doc.globals.values.map v.onVariable := Roster.values_map _ _
    unfold candidates
    simp only [hglobals, List.map_map]
    rfl
  | objects =>
    unfold candidates
    simp only [veiled_objectEntries, List.map_map]
    rfl
  | pictures index | sounds index =>
    unfold candidates
    simp only [hget]
    cases doc.objectCells.get? index with
    | none => rfl
    | some object =>
      simp only [Option.map_some, Option.getD_some, Veil.onObject, Roster.values_map, List.map_map]
      rfl

/-- What a name finds, under a veil. -/
theorem veiled_firstNamed? (target : Target) (name : Value) :
    ((doc.veiled v).candidates target).firstNamed? name = ((doc.candidates target).firstNamed? name).map v.onId := by
  unfold Candidates.firstNamed?
  rw [veiled_candidates, List.find?_map, Option.map_map, Option.map_map]
  rfl

/-- Which references are noted can be seen under a veil. -/
theorem veiled_noted : (doc.veiled v).noted = doc.noted := by
  have hheld : ∀ place, (doc.veiled v).held place = (doc.held place).map v.onItem := by
    intro place
    have hget : (doc.veiled v).parts.get? place = (doc.parts.get? place).map (Roster.map v.onItem) :=
      Cells.get?_map _ _ _
    unfold held
    rw [hget]
    cases doc.parts.get? place with
    | none => rfl
    | some items => exact Roster.values_map _ _
  have hplaces : ∀ item, (v.onItem item).places = item.places := fun item => by cases item <;> rfl
  have hreference : ∀ item, (doc.veiled v).referenceOf? (v.onItem item) = doc.referenceOf? item := fun item => by
    cases item <;> rfl
  have hnoted : ∀ depth place, (doc.veiled v).notedIn depth place = doc.notedIn depth place := by
    intro depth
    unfold notedIn
    induction depth with
    | zero => exact fun _ => rfl
    | succ depth ih =>
      intro place
      simp only [itemsWithin, hheld, List.flatMap_map, List.filterMap_flatMap, List.filterMap_cons, hreference, hplaces,
        ih]
  have houter : (doc.veiled v).outerPlaces = doc.outerPlaces := by
    unfold outerPlaces
    rw [veiled_objectEntries, veiled_functionEntries, List.map_map, List.map_map]
    rfl
  have hsize : (doc.veiled v).parts.size = doc.parts.size := Cells.size_map _ _
  unfold noted
  rw [houter, hsize]
  exact List.flatMap_congr fun place _ => hnoted _ place

end

end Document

end SceneTree
