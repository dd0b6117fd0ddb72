import SceneTree.Proofs.Regularity.Trees

/-!
# The styling of text boxes

Every object that is read from a text is a sprite or a text box, and a text box has all of its styling: what was given
for it, unless that is null, and the defaults otherwise. A value that counts as false or as empty is still a value.
-/

namespace SceneTree

namespace Value

/-- A value is a text if it equals one: no number, collection or reference does. -/
theorem isText_iff {v : Value} {text : String} : v.isText text = true ↔ v = .str text := by
  cases v <;> simp [isText, equals, same, sameNumber, sameNumber.sameInt]

/-- A value that is one of some texts is one of these. -/
theorem exists_of_isOneOf {v : Value} {texts : List String} (h : v.isOneOf texts = true) :
    ∃ text ∈ texts, v = .str text := by
  obtain ⟨text, htext, hv⟩ := List.any_eq_true.mp h
  exact ⟨text, htext, isText_iff.mp hv⟩

end Value

namespace Node

variable {node node' : Node} {fields : List Field}

/-- Some fields of a node hold something. -/
def Filled (node : Node) (fields : List Field) : Prop := ∀ field ∈ fields, (node.get field).isNull = false

theorem Filled.nil (node : Node) : node.Filled [] := List.forall_mem_nil _

/-- A value leaves the fields filled that are. -/
theorem Filled.set (h : node.Filled fields) (field : Field) {v : Value} (hv : v.isNull = false) :
    (node.set field v).Filled fields := by
  intro f hf
  by_cases hne : f = field
  · rw [hne, get_set_self]
    exact hv
  · rw [get_set_of_ne node v hne]
    exact h f hf

/-- A default fills its field, and leaves the others filled that are. -/
theorem Filled.setDefault (h : node.Filled fields) (field : Field) {v : Value} (hv : v.isNull = false) :
    (node.setDefault field v).Filled (field :: fields) := by
  rw [Node.setDefault]
  split
  · refine List.forall_mem_cons.mpr ⟨?_, h.set field hv⟩
    rw [get_set_self]
    exact hv
  · next hfield => exact List.forall_mem_cons.mpr ⟨by simpa using hfield, h⟩

@[simp] theorem kind_setDefault (node : Node) (field : Field) (v : Value) :
    (node.setDefault field v).kind = node.kind := by
  rw [setDefault]
  split <;> rfl

@[simp] theorem get_setDefault_of_ne (node : Node) {field f : Field} (v : Value) (h : f ≠ field) :
    (node.setDefault field v).get f = node.get f :=
  (node.get_setDefault field f v).resolve_right fun hf => h hf.1

theorem kind_of_withHalf {field whole : Field} (h : node.withHalf field whole = .ok node') :
    node'.kind = node.kind := by
  rw [withHalf] at h
  split at h
  · obtain ⟨v, -, h⟩ := Outcome.bind_eq_ok_iff.mp h
    cases h
    rfl
  · cases h
    rfl

/-- The fields that style a text box, except for the font. -/
def stylings : List Field :=
  [.fontSize, .text, .textAlign, .colour, .bgColor, .underLine, .strike, .lineBreak]

/-- The defaults of a text box leave it the object that it is, and fill all of its styling. -/
theorem of_withTextBoxDefaults (h : node.withTextBoxDefaults = .ok node') :
    node'.kind = node.kind ∧ node'.get .objectType = node.get .objectType ∧ node'.Filled stylings := by
  have hfirst : ((node.setDefault .text (.str defaultText)).setDefault .fontSize defaultFontSize).Filled
      [.fontSize, .text] := ((Filled.nil node).setDefault .text rfl).setDefault .fontSize rfl
  -- the defaults that come after the font, whatever that is
  have hlast {node : Node} (h : node.Filled [.fontSize, .text]) :
      ((((((node.setDefault .colour (.str "#000000")).setDefault .textAlign (.int 0)).setDefault .lineBreak
        (.bool false)).setDefault .bgColor (.str "#ffffff")).setDefault .underLine (.bool false)).setDefault .strike
        (.bool false)).Filled stylings := by
    have hall := (((((h.setDefault .colour (v := .str "#000000") rfl).setDefault .textAlign (v := .int 0)
      rfl).setDefault .lineBreak (v := .bool false) rfl).setDefault .bgColor (v := .str "#ffffff") rfl).setDefault
      .underLine (v := .bool false) rfl).setDefault .strike (v := .bool false) rfl
    exact fun field hf => hall field ((by decide : stylings ⊆ [.strike, .underLine, .bgColor, .lineBreak, .textAlign,
      .colour, .fontSize, .text]) hf)
  rw [withTextBoxDefaults] at h
  simp only at h
  split at h
  · obtain ⟨size, -, h⟩ := Outcome.bind_eq_ok_iff.mp h
    cases h
    exact ⟨by simp, by simp, hlast (hfirst.set .font rfl)⟩
  · cases h
    exact ⟨by simp, by simp, hlast hfirst⟩

/-- An object is a sprite, or a text box with all of its styling. -/
def Styled (node : Node) : Prop :=
  node.get .objectType = .str "sprite" ∨ node.get .objectType = .str "textBox" ∧ node.Filled stylings

/-- An object that has been checked is one of the two, and remains of its kind. -/
theorem of_completeObject (h : node.completeObject = .ok node') : node'.kind = node.kind ∧ node'.Styled := by
  rw [completeObject_eq] at h
  split at h
  · cases h
  · next htype =>
    split at h
    · cases h
    · obtain ⟨node₁, h₁, h⟩ := Outcome.bind_eq_ok_iff.mp h
      obtain ⟨node₂, h₂, h⟩ := Outcome.bind_eq_ok_iff.mp h
      have hkind : node₂.kind = node.kind := (kind_of_withHalf h₂).trans (kind_of_withHalf h₁)
      have hsame : node₂.get .objectType = node.get .objectType :=
        (get_of_withHalf h₂ (f := .objectType) nofun).trans (get_of_withHalf h₁ nofun)
      obtain ⟨text, htext, hv⟩ := Value.exists_of_isOneOf (by simpa using htype)
      split at h
      · next htext =>
        obtain ⟨hk, ht, hfilled⟩ := of_withTextBoxDefaults h
        exact ⟨hk.trans hkind, .inr ⟨ht.trans (Value.isText_iff.mp htext), hfilled⟩⟩
      · next hother =>
        cases h
        refine ⟨hkind, .inl ?_⟩
        rw [hsame, hv]
        rw [Value.isText_iff, hsame, hv] at hother
        simp only [objectTypes, List.mem_cons, List.not_mem_nil, or_false] at htext
        rcases htext with rfl | rfl
        · rfl
        · exact absurd rfl hother

/-- What completing a node makes of it is of the same kind, and styled if that is one of the kinds of object. -/
theorem of_complete (h : node.complete = .ok node') :
    node'.kind = node.kind ∧ (node.kind.isObject = true → node'.Styled) := by
  rw [complete] at h
  split at h
  · next hk =>
    obtain ⟨hkind, hstyled⟩ := of_completeObject h
    exact ⟨hkind, fun _ => hstyled⟩
  · next hk =>
    obtain ⟨hkind, hstyled⟩ := of_completeObject h
    exact ⟨hkind, fun _ => hstyled⟩
  · next hk =>
    obtain ⟨hkind, hstyled⟩ := of_completeObject h
    exact ⟨hkind, fun _ => hstyled⟩
  · next hk =>
    refine ⟨?_, fun ho => absurd ho (by simp [hk, Kind.isObject])⟩
    rw [completePicture] at h
    split at h
    · obtain ⟨_, -, h⟩ := Outcome.bind_eq_ok_iff.mp h
      cases h
      simp
    · cases h
      simp
  · next hk =>
    refine ⟨?_, fun ho => absurd ho (by simp [hk, Kind.isObject])⟩
    rw [completeSound] at h
    split at h
    · obtain ⟨_, -, h⟩ := Outcome.bind_eq_ok_iff.mp h
      cases h
      simp
    · cases h
      rfl
  · next hk =>
    refine ⟨?_, fun ho => absurd ho (by simp [hk, Kind.isObject])⟩
    rw [completeFunction] at h
    split at h <;> cases h
    rfl
  · next hobject hsprite htext _ _ _ =>
    cases h
    refine ⟨rfl, fun ho => ?_⟩
    cases hk : node.kind with
    | object => exact absurd hk hobject
    | sprite => exact absurd hk hsprite
    | textBox => exact absurd hk htext
    | _ => rw [hk] at ho; cases ho

/-- A node comes of values that were given for some of its fields. -/
def Built (node : Node) : Prop := ∃ kind given, build kind given = .ok node

/-- An object that was built is a sprite, or a text box with all of its styling. -/
theorem Built.styled (h : node.Built) (hk : node.kind.isObject = true) : node.Styled := by
  obtain ⟨kind, given, h⟩ := h
  rw [build] at h
  split at h
  · cases h
  · split at h
    · cases h
    · obtain ⟨hkind, hstyled⟩ := of_complete h
      exact hstyled (hkind ▸ hk)

end Node

namespace Markup

mutual

/-- The nodes of a tree that derives from the rule of nodes were built. -/
theorem IsNode.built {ts : List Token} {tree : Tree Unit} (h : IsNode ts tree) : ∀ n ∈ tree.nodes, n.2.Built := by
  match h with
  | .bare ⟨_, _, _, _, hb⟩ =>
    rw [Tree.nodes, Tree.nodesOf]
    exact List.forall_mem_singleton.mpr ⟨_, _, hb⟩
  | .block ⟨_, _, _, _, hb⟩ hc =>
    rw [Tree.nodes]
    exact List.forall_mem_cons.mpr ⟨⟨_, _, hb⟩, hc.built⟩

theorem IsBody.built {ts : List Token} {children : List (Tree Unit)} (h : IsBody ts children) :
    ∀ n ∈ Tree.nodesOf children, n.2.Built := by
  match h with
  | .block _ _ hi _ => exact hi.built

theorem IsChildren.built {ts : List Token} {children : List (Tree Unit)} (h : IsChildren ts children) :
    ∀ n ∈ Tree.nodesOf children, n.2.Built := by
  match h with
  | .none => exact List.forall_mem_nil _
  | .some hi hr _ =>
    rw [Tree.nodesOf]
    exact List.forall_mem_append.mpr ⟨hi.built, hr.built⟩

theorem IsItem.built {ts : List Token} {tree : Tree Unit} (h : IsItem ts tree) : ∀ n ∈ tree.nodes, n.2.Built := by
  match h with
  | .node hn => exact hn.built
  | .value _ =>
    rw [Tree.nodes]
    exact List.forall_mem_nil _

theorem IsMoreChildren.built {ts : List Token} {children : List (Tree Unit)} (h : IsMoreChildren ts children) :
    ∀ n ∈ Tree.nodesOf children, n.2.Built := by
  match h with
  | .none => exact List.forall_mem_nil _
  | .more _ _ hi hr =>
    rw [Tree.nodesOf]
    exact List.forall_mem_append.mpr ⟨hi.built, hr.built⟩

end

/-- The nodes of the tree that a text describes were built. -/
theorem built_of_read {text : String} {tree : Tree Unit} (h : read text = .ok tree) : ∀ n ∈ tree.nodes, n.2.Built := by
  obtain ⟨_, hn⟩ := isNode_of_read h
  exact hn.built

end Markup

end SceneTree
