import SceneTree.Proofs.Integrity.Homes
import SceneTree.Proofs.Repetition.Behind
import SceneTree.Proofs.Translation.Compiled

/-!
# Layouts of documents that stand behind others

A document that stands behind another one looks the same as by itself. Its references have other numbers, which show
only in what is noted of readings; and it has more places, so that one might go deeper into them, but no deeper than
they are.
-/

namespace SceneTree

namespace Value

/-- What a reading comes to, whatever is noted. -/
abbrev Same (v w : Value) : Prop := Reads (fun _ => True) v w

theorem Same.lookup {origin origin' : Origin} {kind : String} {name : Value} {cs : Candidates} :
    Same (.lookup origin kind name cs) (.lookup origin' kind name cs) := by
  unfold Same Reads
  rw [encode, encode, readLookup, readLookup]
  refine ⟨fun s s' => ?_, fun _ _ => trivial⟩
  simp only [Attempt.bind_apply]
  cases hr : cs.resolve kind name with
  | error fault => rfl
  | ok id => cases origin <;> cases origin' <;> rfl

/-- A value comes to the same whenever it is read. -/
theorem Same.refl (v : Value) : Same v v := by
  unfold Same Reads
  refine encode.induct (fun v => (encode v).Mirrors _ (encode v))
    (fun es => (encodeEntries es).Mirrors (fun _ => True) (encodeEntries es))
    (fun vs => (encodeItems vs).Mirrors (fun _ => True) (encodeItems vs)) ?_ ?_ ?_ ?_ ?_ ?_ ?_ ?_ ?_ ?_ ?_ v
  · intro id type x y assemble copyable deletable emphasized movable readOnly extensions params statements hp hs
    rw [encode]
    exact .bind hp fun _ => .bind hs fun _ => .bind (.ofExcept _) fun _ => .pure _
  · intro items ih
    rw [encode]
    exact .bind ih fun _ => .pure _
  · intro items ih
    rw [encode]
    exact .bind ih fun _ => .pure _
  · intro items ih
    rw [encode]
    exact .bind ih fun _ => .pure _
  · intro entries ih
    rw [encode]
    exact .bind ih fun _ => .pure _
  · intro origin kind name candidates
    exact Same.lookup
  · intro v h₁ h₂ h₃ h₄ h₅ h₆
    rw [encode.eq_7 v h₁ h₂ h₃ h₄ h₅ h₆]
    exact .pure v
  · rw [encodeItems]
    exact .pure []
  · intro v rest hv hr
    rw [encodeItems]
    exact .bind hv fun _ => .bind hr fun _ => .pure _
  · rw [encodeEntries]
    exact .pure []
  · intro k v rest hv hr
    rw [encodeEntries]
    exact .bind hv fun _ => .bind hr fun _ => .pure _

end Value

namespace Document

variable {old doc : Document} {homes : List (Option Nat)}

/-- Going deeper into a place than there are places after it leads to nothing more. -/
theorem Homed.partValues_eq (h : doc.Homed homes) {depth depth' place : Nat} (hd : homes.length ≤ place + depth)
    (hd' : homes.length ≤ place + depth') : doc.partValues depth place = doc.partValues depth' place := by
  have hempty : ∀ {place depth}, homes.length ≤ place → doc.partValues depth place = [] := by
    intro place depth hp
    cases depth with
    | zero => rfl
    | succ depth =>
      have hheld : doc.held place = [] := List.eq_nil_iff_forall_not_mem.mpr fun item hi => by
        have := h.lt_of_mem hi
        omega
      exact congrArg (List.map _) hheld
  induction depth generalizing place depth' with
  | zero => rw [hempty (by omega), hempty (by omega)]
  | succ depth ih =>
    cases depth' with
    | zero => rw [hempty (by omega), hempty (by omega)]
    | succ depth' =>
      refine List.map_congr_left fun item hi => ?_
      have hafter : ∀ q ∈ item.places, doc.partValues depth q = doc.partValues depth' q := by
        intro q hq
        have := (h.places hi hq).1
        exact ih (by omega) (by omega)
      cases item with
      | value | reference => rfl
      | block parts => exact congrArg Value.slot (hafter parts List.mem_cons_self)
      | script head params statements =>
        simp only [itemValue, hafter params List.mem_cons_self,
          hafter statements (List.mem_cons_of_mem _ List.mem_cons_self)]

/-- The objects of a document that stands behind another one. -/
theorem behind_objectEntries : (old.behind doc).objectEntries = doc.objectEntries.map old.base.object := by
  have hget : ∀ index, (old.behind doc).objectCells.get? (old.base.objects + index) =
      (doc.objectCells.get? index).map old.base.object := behind_get?_objectCells old doc
  unfold objectEntries
  rw [List.map_filterMap]
  change ((doc.objects.map (old.base.objects + ·)).values).filterMap _ = _
  rw [Roster.values_map, List.filterMap_map]
  exact List.filterMap_congr fun index _ => hget index

/-- The functions of a document that stands behind another one. -/
theorem behind_functionEntries : (old.behind doc).functionEntries = doc.functionEntries.map old.base.function := by
  have hget : ∀ index, (old.behind doc).functionCells.get? (old.base.functions + index) =
      (doc.functionCells.get? index).map old.base.function := behind_get?_functionCells old doc
  unfold functionEntries
  rw [List.map_filterMap]
  change ((doc.functions.map (old.base.functions + ·)).values).filterMap _ = _
  rw [Roster.values_map, List.filterMap_map]
  exact List.filterMap_congr fun index _ => hget index

/-- A reference means the same in a document that stands behind another one. -/
theorem behind_candidates (target : Target) :
    (old.behind doc).candidates (old.base.target target) = doc.candidates target := by
  cases target with
  | globals => rfl
  | objects =>
    unfold candidates Base.target
    simp only [behind_objectEntries, List.map_map]
    rfl
  | pictures index | sounds index =>
    unfold candidates Base.target
    simp only [behind_get?_objectCells, Option.map_map]
    rfl

/-- A reference comes to the same in a document that stands behind another one. -/
theorem behind_referenceValue (index : Nat) :
    Value.Same ((old.behind doc).referenceValue (old.base.references + index)) (doc.referenceValue index) := by
  have hget : (old.behind doc).references.get? (old.base.references + index) =
      (doc.references.get? index).map fun p => (old.base.target p.1, p.2) := Cells.get?_behind _ _ _ _
  unfold referenceValue
  rw [hget]
  cases doc.references.get? index with
  | none => exact .refl _
  | some p =>
    obtain ⟨target, r⟩ := p
    simp only [Option.map_some, behind_candidates]
    exact .lookup

/-- What a place holds is the same in a document that stands behind another one. -/
theorem behind_partValues (depth place : Nat) :
    List.Forall₂ Value.Same ((old.behind doc).partValues depth (old.base.parts + place))
      (doc.partValues depth place) := by
  induction depth generalizing place with
  | zero => exact .nil
  | succ depth ih =>
    have hget : (old.behind doc).parts.get? (old.base.parts + place) =
        (doc.parts.get? place).map (Roster.map old.base.item) := Cells.get?_behind _ _ _ _
    unfold partValues
    rw [hget]
    cases doc.parts.get? place with
    | none => exact .nil
    | some items =>
      simp only [Option.map_some, Option.getD_some, Roster.values_map]
      refine List.forall₂_map_left_iff.mpr (List.forall₂_map_left_iff.mpr (List.forall₂_map_right_iff.mpr ?_))
      refine List.forall₂_same.mpr fun item _ => ?_
      cases item with
      | value v => exact .refl v
      | block parts => exact .slot (ih parts)
      | script head params statements => exact .script head (.slot (ih params)) (.slot (ih statements))
      | reference index => exact behind_referenceValue index

/-- The text of a place is the same in a document that stands behind another one. -/
theorem behind_slotValue (h : doc.Homed homes) (place : Nat) :
    Value.Same ((old.behind doc).slotValue (old.base.parts + place)) (doc.slotValue place) := by
  have hsize : (old.behind doc).parts.size = old.base.parts + doc.parts.size := Cells.size_behind _ _ _
  have hdepth : doc.partValues (old.behind doc).parts.size place = doc.partValues doc.parts.size place :=
    h.partValues_eq (by rw [h.size, hsize]; omega) (by rw [h.size]; omega)
  unfold slotValue
  rw [← hdepth]
  exact .slot (behind_partValues _ place)

theorem layoutEach_mirrors_layoutEach {α β : Type} {I : Readings → Prop} {layout : α → Attempt Readings Value}
    {layout' : β → Attempt Readings Value} {as : List α} {bs : List β}
    (h : List.Forall₂ (fun a b => (layout a).Mirrors I (layout' b)) as bs) :
    (layoutEach layout as).Mirrors I (layoutEach layout' bs) := by
  induction h with
  | nil => exact .pure []
  | cons hab _ ih => exact .bind hab fun v => .bind ih fun vs => .pure (v :: vs)

/-- A document that stands behind another one looks as it does by itself. -/
theorem behind_layout (h : doc.Homed homes) : (old.behind doc).layout.Mirrors (fun _ => True) doc.layout := by
  have hobjects : List.Forall₂ (fun a b => ((old.behind doc).objectLayout a).Mirrors (fun _ => True)
      (doc.objectLayout b)) (old.behind doc).objectEntries doc.objectEntries := by
    rw [behind_objectEntries]
    refine List.forall₂_map_left_iff.mpr (List.forall₂_same.mpr fun object _ => ?_)
    exact .bind (behind_slotValue h object.blocks).dump fun _ => .pure _
  have hfunctions : List.Forall₂ (fun a b => ((old.behind doc).functionLayout a).Mirrors (fun _ => True)
      (doc.functionLayout b)) (old.behind doc).functionEntries doc.functionEntries := by
    rw [behind_functionEntries]
    refine List.forall₂_map_left_iff.mpr (List.forall₂_same.mpr fun function _ => ?_)
    exact .bind (behind_slotValue h function.content).dump fun _ => .pure _
  refine .bind (layoutEach_mirrors_layoutEach hobjects) fun _ => ?_
  refine .bind (layoutEach_mirrors_layoutEach hfunctions) fun _ => ?_
  refine .bind (layoutEach_mirrors_layoutEach (List.forall₂_same.mpr fun table _ => ?_)) fun _ => .pure _
  exact Value.Same.refl (.map table)

end Document

end SceneTree
