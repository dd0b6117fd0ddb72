import SceneTree.Proofs.Translation.Channel

/-!
# What gathers in one object, function or place

A node changes the object, the function or the places that its scope names, and no others. So what is once closed, since
no scope names it any more, stays as it is; and what is open gathers what its own nodes have to offer.
-/

namespace SceneTree

namespace Branch

/-- What a node does to the object around it. -/
def changeObject (b : Branch) (n : Handle) (object : ObjectEntry) : ObjectEntry :=
  if b.kind = .picture then object.addPicture n (b.node.pictureEntry b.id) (b.node.get .selected).truthy
  else if b.kind = .sound then object.addSound n (b.node.soundEntry b.id)
  else object

/-- What a node does to the function around it. -/
def changeFunction (b : Branch) (n : Handle) (function : FunctionEntry) : FunctionEntry :=
  if b.kind = .localVariable then function.addLocal n (b.node.localEntry b.id function.id) else function

end Branch

section

variable {scope inner : NodeScope} {n n' : Handle} {doc doc' : Document} {b : Branch} {out : Option NodeScope}
  {forest : List (Tree Value)} {i p : Nat}

/-- An object that the scope does not name stays as it is. -/
theorem Effect.get?_object_of_ne (h : Effect scope n doc b out doc') (hi : i < doc.objectCells.size)
    (ho : scope.get .object ≠ some i) : doc'.objectCells.get? i = doc.objectCells.get? i := by
  cases h with
  | picture _ ho' => exact Cells.get?_modify_of_ne _ _ fun he => ho (he ▸ ho')
  | sound _ ho' => exact Cells.get?_modify_of_ne _ _ fun he => ho (he ▸ ho')
  | object => exact Cells.get?_add_of_ne _ _ (Nat.ne_of_lt hi)
  | _ => rfl

/-- The object that the scope names is changed by its pictures and sounds. -/
theorem Effect.get?_object_self (h : Effect scope n doc b out doc') (hi : i < doc.objectCells.size)
    (ho : scope.get .object = some i) :
    doc'.objectCells.get? i = (doc.objectCells.get? i).map (b.changeObject n) := by
  have hid : b.kind ≠ .picture → b.kind ≠ .sound → (doc.objectCells.get? i).map (b.changeObject n) =
      doc.objectCells.get? i := by
    intro hp hs
    have hc : b.changeObject n = id := by
      funext object
      rw [Branch.changeObject, if_neg hp, if_neg hs]
      rfl
    rw [hc, Option.map_id, id]
  cases h with
  | picture hk ho' =>
    obtain rfl := Option.some_inj.mp (ho'.symm.trans ho)
    refine (Cells.get?_modify_self _ _ _).trans (Option.map_congr fun object _ => ?_)
    rw [Branch.changeObject, if_pos hk]
  | sound hk ho' =>
    obtain rfl := Option.some_inj.mp (ho'.symm.trans ho)
    refine (Cells.get?_modify_self _ _ _).trans (Option.map_congr fun object _ => ?_)
    rw [Branch.changeObject, if_neg (by rw [hk]; decide), if_pos hk]
  | object hk =>
    rw [hid (by intro he; rw [he] at hk; cases hk) (by intro he; rw [he] at hk; cases hk)]
    exact Cells.get?_add_of_ne _ _ (Nat.ne_of_lt hi)
  | named hk => exact (hid (by intro he; rw [he] at hk; cases hk) (by intro he; rw [he] at hk; cases hk)).symm
  | _ hk => exact (hid (by rw [hk]; decide) (by rw [hk]; decide)).symm

/-- A function that the scope does not name stays as it is. -/
theorem Effect.get?_function_of_ne (h : Effect scope n doc b out doc') (hi : i < doc.functionCells.size)
    (hf : scope.get .function ≠ some i) : doc'.functionCells.get? i = doc.functionCells.get? i := by
  cases h with
  | localVariable _ hf' => exact Cells.get?_modify_of_ne _ _ fun he => hf (he ▸ hf')
  | function => exact Cells.get?_add_of_ne _ _ (Nat.ne_of_lt hi)
  | _ => rfl

/-- The function that the scope names is changed by its local variables. -/
theorem Effect.get?_function_self (h : Effect scope n doc b out doc') (hi : i < doc.functionCells.size)
    (hf : scope.get .function = some i) :
    doc'.functionCells.get? i = (doc.functionCells.get? i).map (b.changeFunction n) := by
  have hid : b.kind ≠ .localVariable → (doc.functionCells.get? i).map (b.changeFunction n) =
      doc.functionCells.get? i := by
    intro hl
    have hc : b.changeFunction n = id := by
      funext function
      rw [Branch.changeFunction, if_neg hl]
      rfl
    rw [hc, Option.map_id, id]
  cases h with
  | localVariable hk hf' =>
    obtain rfl := Option.some_inj.mp (hf'.symm.trans hf)
    refine (Cells.get?_modify_self _ _ _).trans (Option.map_congr fun function hfun => ?_)
    rw [Branch.changeFunction, if_pos hk, Document.functionIn, hf]
    simp only [hfun, Option.map_some, Option.getD_some]
  | function hk =>
    rw [hid (by rw [hk]; decide)]
    exact Cells.get?_add_of_ne _ _ (Nat.ne_of_lt hi)
  | object hk => exact (hid (by intro he; rw [he] at hk; cases hk)).symm
  | named hk => exact (hid (by intro he; rw [he] at hk; cases hk)).symm
  | _ hk => exact (hid (by rw [hk]; decide)).symm

/-- A place that the scope does not name stays as it is. -/
theorem Effect.get?_part_of_ne (h : Effect scope n doc b out doc') (hp : p < doc.parts.size)
    (hs : scope.get .statements ≠ some (.place p)) (hq : scope.get .params ≠ some (.place p)) :
    doc'.parts.get? p = doc.parts.get? p := by
  have hadd : doc.addPlace.parts.get? p = doc.parts.get? p := Cells.get?_add_of_ne _ _ (Nat.ne_of_lt hp)
  cases h with
  | object => exact hadd
  | function => exact hadd
  | statement _ hs' =>
    refine (Cells.get?_modify_of_ne _ _ fun he => hs ?_).trans hadd
    rw [he]
    exact hs'
  | script _ hq' =>
    refine (Cells.get?_modify_of_ne _ _ fun he => hq ?_).trans ?_
    · rw [he]
      exact hq'
    refine (Cells.get?_add_of_ne _ _ ?_).trans hadd
    simp only [Document.addPlace, Cells.size_add]
    omega
  | param _ hq' => exact Cells.get?_modify_of_ne _ _ fun he => hq (he ▸ hq')
  | named _ _ hq' => exact Cells.get?_modify_of_ne _ _ fun he => hq (he ▸ hq')
  | _ => rfl

/-- A scope for children names only such old places as the scope around it does. -/
theorem Effect.get_places (h : Effect scope n doc b (some inner) doc') (hp : p < doc.parts.size) :
    (inner.get .statements = some (.place p) → scope.get .statements = some (.place p)) ∧
      (inner.get .params = some (.place p) → scope.get .params = some (.place p)) := by
  rw [h.get_statements, h.get_params]
  constructor
  · split
    · intro he
      cases he
      exact absurd hp (Nat.lt_irrefl _)
    · split
      · intro he
        cases he
        omega
      · exact id
  · split
    · exact nofun
    · split
      · intro he
        cases he
        exact absurd hp (Nat.lt_irrefl _)
      · exact id

/-- A filling leaves alone the objects that the scope does not name. -/
theorem Fills.get?_object_of_ne (h : Fills scope forest n doc n' doc') (hi : i < doc.objectCells.size)
    (ho : scope.get .object ≠ some i) : doc'.objectCells.get? i = doc.objectCells.get? i := by
  induction h with
  | nil => rfl
  | literal v _ ih => exact ih hi ho
  | leaf hb _ _ ih =>
    have hi₁ := Nat.lt_of_lt_of_le hi hb.effect.later.objects.size_le
    exact (ih hi₁ ho).trans (hb.effect.get?_object_of_ne hi ho)
  | branch hb hc _ ihc ihr =>
    have hi₁ := Nat.lt_of_lt_of_le hi hb.effect.later.objects.size_le
    have hi₂ := Nat.lt_of_lt_of_le hi₁ hc.later.objects.size_le
    refine (ihr hi₂ ho).trans ((ihc hi₁ ?_).trans (hb.effect.get?_object_of_ne hi ho))
    rw [hb.effect.get_object]
    split
    · intro he
      exact Nat.ne_of_gt hi (Option.some_inj.mp he)
    · exact ho

/-- A filling leaves alone the functions that the scope does not name. -/
theorem Fills.get?_function_of_ne (h : Fills scope forest n doc n' doc') (hi : i < doc.functionCells.size)
    (hf : scope.get .function ≠ some i) : doc'.functionCells.get? i = doc.functionCells.get? i := by
  induction h with
  | nil => rfl
  | literal v _ ih => exact ih hi hf
  | leaf hb _ _ ih =>
    have hi₁ := Nat.lt_of_lt_of_le hi hb.effect.later.functions.size_le
    exact (ih hi₁ hf).trans (hb.effect.get?_function_of_ne hi hf)
  | branch hb hc _ ihc ihr =>
    have hi₁ := Nat.lt_of_lt_of_le hi hb.effect.later.functions.size_le
    have hi₂ := Nat.lt_of_lt_of_le hi₁ hc.later.functions.size_le
    refine (ihr hi₂ hf).trans ((ihc hi₁ ?_).trans (hb.effect.get?_function_of_ne hi hf))
    rw [hb.effect.get_function]
    split
    · intro he
      cases he
    · split
      · intro he
        exact Nat.ne_of_gt hi (Option.some_inj.mp he)
      · exact hf

/-- A filling leaves alone the places that the scope does not name. -/
theorem Fills.get?_part_of_ne (h : Fills scope forest n doc n' doc') (hp : p < doc.parts.size)
    (hs : scope.get .statements ≠ some (.place p)) (hq : scope.get .params ≠ some (.place p)) :
    doc'.parts.get? p = doc.parts.get? p := by
  induction h with
  | nil => rfl
  | literal v _ ih => exact ih hp hs hq
  | leaf hb _ _ ih =>
    have hp₁ := Nat.lt_of_lt_of_le hp hb.effect.later.parts.size_le
    exact (ih hp₁ hs hq).trans (hb.effect.get?_part_of_ne hp hs hq)
  | branch hb hc _ ihc ihr =>
    have hp₁ := Nat.lt_of_lt_of_le hp hb.effect.later.parts.size_le
    have hp₂ := Nat.lt_of_lt_of_le hp₁ hc.later.parts.size_le
    obtain ⟨his, hiq⟩ := hb.effect.get_places hp
    exact (ihr hp₂ hs hq).trans ((ihc hp₁ (mt his hs) (mt hiq hq)).trans (hb.effect.get?_part_of_ne hp hs hq))

/-- Whether the nearest object above is the one with a number. -/
def OwnObject (i : Nat) (own : Bool) (scope : NodeScope) (doc : Document) : Prop :=
  i < doc.objectCells.size ∧ (own = true ↔ scope.get .object = some i)

theorem OwnObject.later {own : Bool} (h : OwnObject i own scope doc) (hl : doc.Later doc') :
    OwnObject i own scope doc' :=
  ⟨Nat.lt_of_lt_of_le h.1 hl.objects.size_le, h.2⟩

theorem OwnObject.below {own : Bool} (h : OwnObject i own scope doc)
    (hb : Contributes scope n doc b (some inner) doc') : OwnObject i (b.ownObjectBelow own) inner doc' := by
  refine ⟨(h.later hb.effect.later).1, ?_⟩
  rw [hb.effect.get_object, Branch.ownObjectBelow]
  split
  · next hk =>
    have hne : doc.objectCells.size ≠ i := Nat.ne_of_gt h.1
    simp [hk, hne]
  · next hk =>
    rw [Bool.not_eq_true] at hk
    simp [hk, h.2]

/-- The object in question is there, and its handles are old. -/
theorem OwnObject.get? {own : Bool} (h : OwnObject i own scope doc) (hb : Contributes scope n doc b out doc') :
    ∃ object, doc.objectCells.get? i = some object ∧ object.pictures.Below n ∧ object.sounds.Below n ∧
      doc'.objectCells.get? i = some (if own then b.changeObject n object else object) := by
  obtain ⟨object, ho⟩ := Option.isSome_iff_exists.mp (Cells.isSome_get?_iff.mpr h.1)
  obtain ⟨hp, hs⟩ := hb.fresh.below.objectCells i object ho
  refine ⟨object, ho, hp, hs, ?_⟩
  cases own with
  | true => rw [hb.effect.get?_object_self h.1 (h.2.mp rfl), ho]; rfl
  | false =>
    have hne : scope.get .object ≠ some i := fun he => Bool.false_ne_true (h.2.mpr he)
    rw [hb.effect.get?_object_of_ne h.1 hne, ho]
    rfl

/-- The pictures of one object. -/
theorem pictures_channel (i : Nat) :
    Channel (fun doc => ((doc.objectCells.get? i).map fun object => object.pictures.values).getD []) snoc
      Branch.ownObjectBelow Branch.picture? (OwnObject i) where
  gives := by
    intro own scope n doc b out doc₁ h hb
    obtain ⟨object, ho, hp, -, ho'⟩ := h.get? hb
    simp only [ho, ho', Option.map_some, Option.getD_some, foldl_toList_snoc]
    cases own with
    | false => simp [Branch.picture?]
    | true =>
      by_cases hk : b.kind = .picture
      · simp only [Branch.picture?, Branch.changeObject, hk, if_true, and_self]
        exact hp.values_insert _
      · simp only [Branch.picture?, Branch.changeObject, hk, if_true, if_false, and_false]
        split <;> exact (List.append_nil _).symm
  inner := OwnObject.below
  later := OwnObject.later

/-- The sounds of one object. -/
theorem sounds_channel (i : Nat) :
    Channel (fun doc => ((doc.objectCells.get? i).map fun object => object.sounds.values).getD []) snoc
      Branch.ownObjectBelow Branch.sound? (OwnObject i) where
  gives := by
    intro own scope n doc b out doc₁ h hb
    obtain ⟨object, ho, -, hs, ho'⟩ := h.get? hb
    simp only [ho, ho', Option.map_some, Option.getD_some, foldl_toList_snoc]
    cases own with
    | false => simp [Branch.sound?]
    | true =>
      by_cases hk : b.kind = .sound
      · simp only [Branch.sound?, Branch.changeObject, hk, if_true, and_self]
        exact hs.values_insert _
      · simp only [Branch.sound?, Branch.changeObject, hk, if_true, if_false, and_false]
        split <;> exact (List.append_nil _).symm
  inner := OwnObject.below
  later := OwnObject.later

/-- The picture that one object shows. -/
theorem selectedPicture_channel (i : Nat) :
    Channel (fun doc => ((doc.objectCells.get? i).map fun object => object.selectedPicture).getD .null)
      (fun _ id => id) Branch.ownObjectBelow Branch.selectedPicture? (OwnObject i) where
  gives := by
    intro own scope n doc b out doc₁ h hb
    obtain ⟨object, ho, -, -, ho'⟩ := h.get? hb
    simp only [ho, ho', Option.map_some, Option.getD_some]
    cases own with
    | false => simp [Branch.selectedPicture?]
    | true =>
      by_cases hk : b.kind = .picture
      · by_cases hs : (b.node.get .selected).truthy = true
        · simp [Branch.selectedPicture?, Branch.changeObject, ObjectEntry.addPicture, hk, hs, Node.pictureEntry]
        · simp [Branch.selectedPicture?, Branch.changeObject, ObjectEntry.addPicture, hk, hs]
      · simp only [Branch.selectedPicture?, Branch.changeObject, hk, if_true, if_false, and_false, false_and]
        split <;> rfl
  inner := OwnObject.below
  later := OwnObject.later

/-- Whether the nearest object or function above is the function with a number and an id. -/
def OwnFunction (i : Nat) (id : Value) (own : Bool) (scope : NodeScope) (doc : Document) : Prop :=
  ((doc.functionCells.get? i).map fun function => function.id) = some id ∧
    (own = true ↔ scope.get .function = some i)

theorem OwnFunction.lt {id : Value} {own : Bool} (h : OwnFunction i id own scope doc) :
    i < doc.functionCells.size := by
  obtain ⟨function, hf, -⟩ := Option.map_eq_some_iff.mp h.1
  exact Cells.isSome_get?_iff.mp (by rw [hf]; rfl)

theorem OwnFunction.later {id : Value} {own : Bool} (h : OwnFunction i id own scope doc) (hl : doc.Later doc') :
    OwnFunction i id own scope doc' := by
  obtain ⟨function, hf, hid⟩ := Option.map_eq_some_iff.mp h.1
  obtain ⟨function', hf', he⟩ := hl.functions i function hf
  have hid' : function'.frame.id = function.frame.id := by rw [he]
  refine ⟨?_, h.2⟩
  rw [hf', Option.map_some, ← hid]
  exact congrArg some hid'

theorem OwnFunction.below {id : Value} {own : Bool} (h : OwnFunction i id own scope doc)
    (hb : Contributes scope n doc b (some inner) doc') : OwnFunction i id (b.ownFunctionBelow own) inner doc' := by
  refine ⟨(h.later hb.effect.later).1, ?_⟩
  rw [hb.effect.get_function, Branch.ownFunctionBelow]
  split
  · next hk => simp [hk]
  · next hk =>
    rw [Bool.not_eq_true] at hk
    split
    · next hf =>
      have hne : doc.functionCells.size ≠ i := Nat.ne_of_gt h.lt
      simp [hf, hne]
    · next hf =>
      have hf' : (b.kind == Kind.function) = false := by simpa using hf
      simp [hk, hf', h.2]

/-- The local variables of one function. -/
theorem locals_channel (i : Nat) (id : Value) :
    Channel (fun doc => ((doc.functionCells.get? i).map fun function => function.locals.values).getD []) snoc
      Branch.ownFunctionBelow (Branch.local? id) (OwnFunction i id) where
  gives := by
    intro own scope n doc b out doc₁ h hb
    obtain ⟨function, hf, hid⟩ := Option.map_eq_some_iff.mp h.1
    have hl := hb.fresh.below.functionCells i function hf
    cases own with
    | false =>
      have hne : scope.get .function ≠ some i := fun he => Bool.false_ne_true (h.2.mpr he)
      rw [hb.effect.get?_function_of_ne h.lt hne]
      simp [Branch.local?]
    | true =>
      rw [hb.effect.get?_function_self h.lt (h.2.mp rfl), hf]
      simp only [Option.map_some, Option.getD_some, foldl_toList_snoc]
      by_cases hk : b.kind = .localVariable
      · rw [Branch.local?, if_pos ⟨rfl, hk⟩, Branch.changeFunction, if_pos hk, hid]
        exact hl.values_insert _
      · rw [Branch.local?, if_neg fun hc => hk hc.2, Branch.changeFunction, if_neg hk]
        exact (List.append_nil _).symm
  inner := OwnFunction.below
  later := OwnFunction.later

end

end SceneTree
