import SceneTree.Proofs.Translation.Fills

/-!
# What gathers in one part of a document

A part of a document to which each node makes its own addition grows by what the forest has to offer. `Channel` says for
one part which additions the nodes make, given a context that the scope stands for; `Channel.fills` is the induction,
made once, that adds them up. The collections of a document are such parts, and so are the pictures and sounds of one
object and the local variables of one function.
-/

namespace SceneTree

/-- Adds an item at the end. -/
def snoc {α : Type} (xs : List α) (x : α) : List α := xs ++ [x]

theorem foldl_snoc {α : Type} (ys xs : List α) : ys.foldl snoc xs = xs ++ ys := by
  induction ys generalizing xs with
  | nil => simp
  | cons y rest ih => simp [snoc, ih]

theorem foldl_toList_snoc {α : Type} (o : Option α) (xs : List α) : o.toList.foldl snoc xs = xs ++ o.toList :=
  foldl_snoc o.toList xs

section

variable {κ α β : Type} {f : Document → β} {op : β → α → β} {step : κ → Branch → κ} {piece : κ → Branch → Option α}
  {R : κ → NodeScope → Document → Prop}

/-- A part `f` of a document grows by `op` with the pieces that nodes offer, in contexts that stand in a relation to
scopes and documents. -/
structure Channel (f : Document → β) (op : β → α → β) (step : κ → Branch → κ) (piece : κ → Branch → Option α)
    (R : κ → NodeScope → Document → Prop) : Prop where
  gives : ∀ {c scope n doc b out doc₁}, R c scope doc → Contributes scope n doc b out doc₁ →
    f doc₁ = (piece c b).toList.foldl op (f doc)
  inner : ∀ {c scope inner n doc b doc₁}, R c scope doc → Contributes scope n doc b (some inner) doc₁ →
    R (step c b) inner doc₁
  later : ∀ {c scope doc doc'}, R c scope doc → doc.Later doc' → R c scope doc'

/-- What a forest has to offer is what comes to the part of the document when the forest is filled in. -/
theorem Channel.fills (hch : Channel f op step piece R) {c : κ} {scope : NodeScope} {forest : List (Tree Value)}
    {n n' : Handle} {doc doc' : Document} (h : Fills scope forest n doc n' doc') (hR : R c scope doc) :
    f doc' = (Tree.gatherOf step piece c forest).foldl op (f doc) := by
  induction h generalizing c with
  | nil => rfl
  | literal v _ ih => exact ih hR
  | leaf hb hc _ ih =>
    rw [Tree.gatherOf_node, Tree.gatherOf_of_nodesOf_eq_nil hc, List.nil_append, List.foldl_append,
      ← hch.gives hR hb]
    exact ih (hch.later hR hb.effect.later)
  | branch hb hc hr ihc ihr =>
    rw [Tree.gatherOf_node, List.foldl_append, List.foldl_append, ← hch.gives hR hb, ← ihc (hch.inner hR hb)]
    exact ihr (hch.later hR (hb.effect.later.trans hc.later))

end

section Collections

variable {scope : NodeScope} {n n' : Handle} {doc doc' : Document} {b : Branch} {out : Option NodeScope}
  {forest : List (Tree Value)}

/-- A project fills an empty document. -/
theorem Contributes.blank (h : Contributes scope n doc b out doc') (hk : b.kind = .project) : doc = .empty :=
  h.fresh.blank (h.first hk)

/-- The scenes of a forest, each from its own node. -/
theorem scenes_channel :
    Channel (fun doc => doc.scenes.values) snoc (fun _ _ => ()) (fun _ => Branch.scene?) fun _ _ _ => True where
  gives := by
    intro _ scope n doc b out doc₁ _ h
    cases h.effect with
    | scene hk =>
      rw [Branch.scene?, if_pos hk]
      exact h.fresh.below.scenes.values_insert _
    | project hk =>
      rw [Branch.scene?, if_neg (by rw [hk]; decide), h.blank hk]
      rfl
    | _ hk =>
      rw [Branch.scene?, if_neg (by intro he; rw [he] at hk; cases hk)]
      rfl
  inner := fun _ _ => trivial
  later := fun _ _ => trivial

/-- The messages of a forest, each from its own node. -/
theorem messages_channel :
    Channel (fun doc => doc.messages.values) snoc (fun _ _ => ()) (fun _ => Branch.message?) fun _ _ _ => True where
  gives := by
    intro _ scope n doc b out doc₁ _ h
    cases h.effect with
    | message hk =>
      rw [Branch.message?, if_pos hk]
      exact h.fresh.below.messages.values_insert _
    | project hk =>
      rw [Branch.message?, if_neg (by rw [hk]; decide), h.blank hk]
      rfl
    | _ hk =>
      rw [Branch.message?, if_neg (by intro he; rw [he] at hk; cases hk)]
      rfl
  inner := fun _ _ => trivial
  later := fun _ _ => trivial

/-- The tables of a forest, each from its own node. -/
theorem tables_channel :
    Channel (fun doc => doc.tables.values) snoc (fun _ _ => ()) (fun _ => Branch.table?) fun _ _ _ => True where
  gives := by
    intro _ scope n doc b out doc₁ _ h
    cases h.effect with
    | table hk =>
      rw [Branch.table?, if_pos hk]
      exact h.fresh.below.tables.values_insert _
    | project hk =>
      rw [Branch.table?, if_neg (by rw [hk]; decide), h.blank hk]
      rfl
    | _ hk =>
      rw [Branch.table?, if_neg (by intro he; rw [he] at hk; cases hk)]
      rfl
  inner := fun _ _ => trivial
  later := fun _ _ => trivial

/-- The object that is bound keeps its id. -/
theorem ownerIn_later (hw : scope.Within doc) (hl : doc.Later doc') : doc'.ownerIn scope = doc.ownerIn scope := by
  unfold Document.ownerIn
  cases ho : scope.get .object with
  | none => rfl
  | some i =>
    obtain ⟨object, hi⟩ := Option.isSome_iff_exists.mp (Cells.isSome_get?_iff.mpr (hw.object i ho))
    obtain ⟨object', hi', hf⟩ := hl.objects i object hi
    have hid : object'.frame.id = object.frame.id := by rw [hf]
    have hid : object'.id = object.id := hid
    simp only [hi, hi', Option.map_some, Option.getD_some, hid]

/-- The variables of a forest, each belonging to the nearest object above. -/
theorem globals_channel :
    Channel (fun doc => doc.globals.values) snoc Branch.objectBelow Branch.global? fun owner scope doc =>
      scope.Within doc ∧ doc.ownerIn scope = owner where
  gives := by
    rintro owner scope n doc b out doc₁ ⟨-, ho⟩ h
    cases h.effect with
    | global hk =>
      rw [Branch.global?, if_pos hk, ho]
      exact h.fresh.below.globals.values_insert _
    | project hk =>
      rw [Branch.global?, if_neg (by rw [hk]; decide), h.blank hk]
      rfl
    | _ hk =>
      rw [Branch.global?, if_neg (by intro he; rw [he] at hk; cases hk)]
      rfl
  inner := by
    rintro owner scope inner n doc b doc₁ ⟨hw, ho⟩ h
    refine ⟨h.effect.within hw, ?_⟩
    have hget := h.effect.get_object
    unfold Branch.objectBelow
    split
    · next hk =>
      rw [if_pos hk] at hget
      obtain ⟨scene, -, -, rfl⟩ := h.effect.of_isObject hk
      unfold Document.ownerIn
      rw [hget]
      simp only [Document.addObject, Document.addPlace, Cells.get?_add_self, Option.map_some, Option.getD_some]
      rfl
    · next hk =>
      rw [if_neg hk] at hget
      rw [← ho, ← ownerIn_later hw h.effect.later]
      unfold Document.ownerIn
      rw [hget]
  later := by
    rintro owner scope doc doc' ⟨hw, ho⟩ hl
    exact ⟨hw.later hl, (ownerIn_later hw hl).trans ho⟩

end Collections

end SceneTree
