import SceneTree.Proofs.Translation.Growth

/-!
# What an evaluation leaves alone

An evaluation in a scope can change an object, a function and two collecting places that were there before: those that
the scope binds. All other cells that it changes it has added.
-/

namespace SceneTree

namespace Document

/-- What a scope does not bind of a document is the same in another one. -/
structure Undisturbed (scope : NodeScope) (doc doc' : Document) : Prop where
  objects : ∀ i, i < doc.objectCells.size → scope.get .object ≠ some i →
    doc'.objectCells.get? i = doc.objectCells.get? i
  functions : ∀ i, i < doc.functionCells.size → scope.get .function ≠ some i →
    doc'.functionCells.get? i = doc.functionCells.get? i
  parts : ∀ p, p < doc.parts.size → scope.get .statements ≠ some (.place p) → scope.get .params ≠ some (.place p) →
    doc'.parts.get? p = doc.parts.get? p

theorem Undisturbed.refl (scope : NodeScope) (doc : Document) : doc.Undisturbed scope doc :=
  ⟨fun _ _ _ => rfl, fun _ _ _ => rfl, fun _ _ _ _ => rfl⟩

end Document

/-- Of what is there in a document, a scope binds nothing that another scope does not bind at the same place. -/
structure NodeScope.Confined (scope : NodeScope) (doc : Document) (inner : NodeScope) : Prop where
  object : ∀ i, inner.get .object = some i → scope.get .object = some i ∨ doc.objectCells.size ≤ i
  function : ∀ i, inner.get .function = some i → scope.get .function = some i ∨ doc.functionCells.size ≤ i
  statements : ∀ p, inner.get .statements = some (.place p) →
    scope.get .statements = some (.place p) ∨ doc.parts.size ≤ p
  params : ∀ p, inner.get .params = some (.place p) → scope.get .params = some (.place p) ∨ doc.parts.size ≤ p

theorem NodeScope.Confined.refl (scope : NodeScope) (doc : Document) : scope.Confined doc scope :=
  ⟨fun _ h => .inl h, fun _ h => .inl h, fun _ h => .inl h, fun _ h => .inl h⟩

section

variable {scope inner : NodeScope} {n : Handle} {doc doc' doc'' : Document} {b : Branch} {out : Option NodeScope}

/-- What a scope binds is left alone when what happens in a scope that is confined to it comes on top. -/
theorem Document.Undisturbed.trans (h : doc.Undisturbed scope doc') (hl : doc.Later doc')
    (hc : scope.Confined doc inner) (h' : doc'.Undisturbed inner doc'') : doc.Undisturbed scope doc'' where
  objects := by
    intro i hi hne
    refine (h'.objects i (Nat.lt_of_lt_of_le hi hl.objects.size_le) fun hb => ?_).trans (h.objects i hi hne)
    rcases hc.object i hb with hb | hle
    · exact hne hb
    · exact Nat.not_lt_of_le hle hi
  functions := by
    intro i hi hne
    refine (h'.functions i (Nat.lt_of_lt_of_le hi hl.functions.size_le) fun hb => ?_).trans (h.functions i hi hne)
    rcases hc.function i hb with hb | hle
    · exact hne hb
    · exact Nat.not_lt_of_le hle hi
  parts := by
    intro p hp hs hq
    refine (h'.parts p (Nat.lt_of_lt_of_le hp hl.parts.size_le) (fun hb => ?_) fun hb => ?_).trans (h.parts p hp hs hq)
    · rcases hc.statements p hb with hb | hle
      · exact hs hb
      · exact Nat.not_lt_of_le hle hp
    · rcases hc.params p hb with hb | hle
      · exact hq hb
      · exact Nat.not_lt_of_le hle hp

/-- A contribution changes nothing that was there and that its scope does not bind. -/
theorem Effect.undisturbed (h : Effect scope n doc b out doc') : doc.Undisturbed scope doc' := by
  cases h with
  | fragment | project | scene | global | message | table => exact { Document.Undisturbed.refl scope doc with }
  | object =>
    exact ⟨fun i hi _ => Cells.get?_add_of_ne _ _ (Nat.ne_of_lt hi), fun _ _ _ => rfl,
      fun p hp _ _ => Cells.get?_add_of_ne _ _ (Nat.ne_of_lt hp)⟩
  | function =>
    exact ⟨fun _ _ _ => rfl, fun i hi _ => Cells.get?_add_of_ne _ _ (Nat.ne_of_lt hi),
      fun p hp _ _ => Cells.get?_add_of_ne _ _ (Nat.ne_of_lt hp)⟩
  | picture _ ho | sound _ ho =>
    refine { Document.Undisturbed.refl scope doc with objects := fun i _ hne => ?_ }
    exact Cells.get?_modify_of_ne _ _ fun hi => hne (hi ▸ ho)
  | localVariable _ hf =>
    refine { Document.Undisturbed.refl scope doc with functions := fun i _ hne => ?_ }
    exact Cells.get?_modify_of_ne _ _ fun hi => hne (hi ▸ hf)
  | @statement _ place hs =>
    refine { Document.Undisturbed.refl scope doc with parts := fun p hp hne _ => ?_ }
    refine (Cells.get?_modify_of_ne _ _ fun he : p = place => hne (he ▸ hs)).trans ?_
    exact Cells.get?_add_of_ne _ _ (Nat.ne_of_lt hp)
  | @script _ place hq =>
    refine { Document.Undisturbed.refl scope doc with parts := fun p hp _ hne => ?_ }
    refine (Cells.get?_modify_of_ne _ _ fun he : p = place => hne (he ▸ hq)).trans ?_
    refine (Cells.get?_add_of_ne _ _ ?_).trans (Cells.get?_add_of_ne _ _ (Nat.ne_of_lt hp))
    exact Nat.ne_of_lt (Nat.lt_of_lt_of_le hp (Document.Later.addPlace doc).parts.size_le)
  | param _ hq | named _ _ hq =>
    refine { Document.Undisturbed.refl scope doc with parts := fun p _ _ hne => ?_ }
    exact Cells.get?_modify_of_ne _ _ fun hp => hne (hp ▸ hq)

/-- What a node binds for its children is what its scope binds, or new. -/
theorem Effect.confined (h : Effect inner n doc' b out doc'') (hc : scope.Confined doc inner) (hl : doc.Later doc')
    {below : NodeScope} (hout : out = some below) : scope.Confined doc below := by
  subst hout
  refine ⟨fun i hi => ?_, fun i hi => ?_, fun p hp => ?_, fun p hp => ?_⟩
  · rw [h.get_object] at hi
    split at hi
    · cases hi
      exact .inr hl.objects.size_le
    · exact hc.object i hi
  · rw [h.get_function] at hi
    split at hi
    · cases hi
    · split at hi
      · cases hi
        exact .inr hl.functions.size_le
      · exact hc.function i hi
  · rw [h.get_statements] at hp
    split at hp
    · cases hp
      exact .inr hl.parts.size_le
    · split at hp
      · cases hp
        exact .inr (Nat.le_succ_of_le hl.parts.size_le)
      · exact hc.statements p hp
  · rw [h.get_params] at hp
    split at hp
    · cases hp
    · split at hp
      · cases hp
        exact .inr hl.parts.size_le
      · exact hc.params p hp

end

end SceneTree
