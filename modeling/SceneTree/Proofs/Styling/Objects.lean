import SceneTree.Proofs.Decoding.Documents
import SceneTree.Proofs.Styling.Nodes

/-!
# Sprites and text boxes apart

An object of a document is a sprite or a text box, from its start and after all that is put into it, and is laid out as
the one or the other: a text box with its text, all of its styling and no pictures, and a sprite with neither text nor
styling, whatever was given for these.
-/

namespace SceneTree

/-- The member of a map for a text. -/
def Value.member? (v : Value) (key : String) : Option Value :=
  match v with
  | .map entries => Entries.get? entries (.str key)
  | _ => none

/-- The member of a map whose keys are texts. -/
theorem Value.member?_object (entries : List (String × Value)) (key : String) :
    (Value.object entries).member? key = entries.lookup key := by
  show Entries.get? (entries.map fun p => (.str p.1, p.2)) (.str key) = _
  induction entries with
  | nil => rfl
  | cons p rest ih =>
    rw [List.lookup_cons, List.map_cons, Entries.get?, List.find?_cons]
    by_cases hkey : p.1 = key
    · simp [same, hkey]
    · simp only [same, beq_eq_false_iff_ne.mpr hkey, beq_eq_false_iff_ne.mpr (Ne.symm hkey)]
      exact ih

/-- The keys of the styling of a text box. -/
def Entity.stylingKeys : List String :=
  ["fontSize", "text", "textAlign", "colour", "bgColor", "underLine", "strike", "lineBreak"]

/-- An object that is laid out as a text box: with its text and all of its styling, and without pictures. -/
structure Value.IsTextBox (object : Value) : Prop where
  objectType : object.member? "objectType" = some (.str "textBox")
  text : (object.member? "text").isSome = true
  styling : ∃ entity, object.member? "entity" = some entity ∧
    ∀ key ∈ Entity.stylingKeys, (entity.member? key).isSome = true
  pictures : ∃ sprite, object.member? "sprite" = some sprite ∧ sprite.member? "pictures" = some (.list [])
  selectedPicture : object.member? "selectedPictureId" = none

/-- An object that is laid out as a sprite: without text and without styling. -/
structure Value.IsSprite (object : Value) : Prop where
  objectType : object.member? "objectType" = some (.str "sprite")
  text : object.member? "text" = none
  styling : ∃ entries, object.member? "entity" = some (.object entries) ∧
    ∀ key ∈ Entity.stylingKeys, (Value.object entries).member? key = none

namespace Entity

variable {entity : Entity}

/-- Styling that is all there is all laid out. -/
theorem isSome_member?_layout (h : ∀ p ∈ entity.styling, p.2.isNull = false) :
    ∀ key ∈ stylingKeys, (entity.layout.member? key).isSome = true := by
  have hall : entity.styling.filter (fun p => !p.2.isNull) = entity.styling :=
    List.filter_eq_self.mpr fun p hp => by simp [h p hp]
  intro key hkey
  obtain ⟨p, hp, rfl⟩ := List.mem_map.mp (show key ∈ entity.styling.map (·.1) from hkey)
  rw [layout, Value.member?_object, hall, List.lookup_isSome_iff]
  exact ⟨p, List.mem_append_right _ hp, beq_self_eq_true _⟩

/-- Of styling that is null nothing is laid out. -/
theorem member?_layout_eq_none (h : ∀ p ∈ entity.styling, p.2 = .null) :
    ∃ entries, entity.layout = .object entries ∧
      ∀ key ∈ stylingKeys, (Value.object entries).member? key = none := by
  have hnone : entity.styling.filter (fun p => !p.2.isNull) = [] :=
    List.filter_eq_nil_iff.mpr fun p hp => by simp [h p hp, Value.isNull]
  refine ⟨_, by rw [layout, hnone, List.append_nil], fun key hkey => ?_⟩
  rw [Value.member?_object, List.lookup_eq_none_iff]
  have hapart : ∀ key ∈ stylingKeys, ∀ k ∈ ["x", "y", "regX", "regY", "scaleX", "scaleY", "rotation", "direction",
      "width", "height", "font", "visible"], (key != k) = true := by decide
  exact fun p hp => hapart key hkey p.1 (List.mem_map_of_mem (f := (·.1)) hp)

end Entity

namespace ObjectEntry

variable {object : ObjectEntry}

/-- An object of a document that is a text box. -/
structure IsTextBox (object : ObjectEntry) : Prop where
  objectType : object.objectType = .str "textBox"
  text : object.text.isNull = false
  styling : ∀ p ∈ object.entity.styling, p.2.isNull = false
  pictures : object.pictures.values = []
  selectedPicture : object.selectedPicture = .null

/-- An object of a document that is a sprite. -/
structure IsSprite (object : ObjectEntry) : Prop where
  objectType : object.objectType = .str "sprite"
  text : object.text = .null
  styling : ∀ p ∈ object.entity.styling, p.2 = .null

/-- An object is a text box or a sprite. -/
def Unmixed (object : ObjectEntry) : Prop := object.IsTextBox ∨ object.IsSprite

/-- An object to which pictures can be given is a sprite. -/
theorem Unmixed.isSprite (h : object.Unmixed) (ht : object.objectType.isText "sprite" = true) : object.IsSprite := by
  rcases h with h | h
  · rw [h.objectType, Value.isText_iff] at ht
    simp at ht
  · exact h

/-- A sprite with a picture is a sprite. -/
theorem IsSprite.addPicture (h : object.IsSprite) (n : Handle) (entry : PictureEntry) (selected : Bool) :
    (object.addPicture n entry selected).IsSprite := ⟨h.objectType, h.text, h.styling⟩

/-- An object with a sound is what it was. -/
theorem Unmixed.addSound (h : object.Unmixed) (n : Handle) (entry : SoundEntry) : (object.addSound n entry).Unmixed :=
  h.imp (fun h => ⟨h.objectType, h.text, h.styling, h.pictures, h.selectedPicture⟩)
    fun h => ⟨h.objectType, h.text, h.styling⟩

end ObjectEntry

/-- The styling of an object that is new is what its node says if it is a text box. -/
theorem Node.map_snd_styling (node : Node) :
    node.looks.styling.map (·.2) = Node.stylings.map node.ofTextBox := rfl

/-- The object that a styled node starts is a text box or a sprite. -/
theorem Node.Styled.unmixed {node : Node} (h : node.Styled) (id scene : Value) (blocks : Nat) :
    (node.objectEntry id scene blocks).Unmixed := by
  have hstyling : ∀ p ∈ node.looks.styling, ∃ field ∈ stylings, p.2 = node.ofTextBox field := by
    intro p hp
    have hmem : p.2 ∈ node.looks.styling.map (·.2) := List.mem_map_of_mem hp
    rw [map_snd_styling] at hmem
    obtain ⟨field, hf, hv⟩ := List.mem_map.mp hmem
    exact ⟨field, hf, hv.symm⟩
  rcases h with hs | ⟨ht, hfilled⟩
  · have hnone : ∀ field, node.ofTextBox field = .null := by
      intro field
      refine if_neg fun htext => ?_
      rw [hs, Value.isText_iff] at htext
      simp at htext
    refine .inr ⟨hs, hnone .text, fun p hp => ?_⟩
    obtain ⟨field, -, hv⟩ := hstyling p hp
    rw [hv, hnone]
  · have hall : ∀ field, node.ofTextBox field = node.get field := fun field => if_pos (Value.isText_iff.mpr ht)
    refine .inl ⟨ht, ?_, fun p hp => ?_, rfl, rfl⟩
    · show (node.ofTextBox .text).isNull = false
      rw [hall]
      exact hfilled .text (by decide)
    · obtain ⟨field, hf, hv⟩ := hstyling p hp
      rw [hv, hall]
      exact hfilled field hf

namespace Document

/-- All objects of a document, also those that no roster names any more, are text boxes or sprites. -/
def Unmixed (doc : Document) : Prop := doc.objectCells.All ObjectEntry.Unmixed

end Document

/-- What is built adds text boxes and sprites, and gives pictures to sprites alone. -/
theorem Effect.unmixed {scope : NodeScope} {n : Handle} {doc doc' : Document} {b : Branch} {out : Option NodeScope}
    (h : Effect scope n doc b out doc') (hb : b.node.Built) (hd : doc.Unmixed) : doc'.Unmixed := by
  cases h with
  | object hk => exact Cells.All.add hd ((hb.styled hk).unmixed _ _ _)
  | picture _ _ hc ht =>
    refine Cells.All.modify_at hd fun object ho => ?_
    obtain rfl := Option.some.inj (hc.symm.trans ho)
    exact .inr (((hd _ _ hc).isSprite ht).addPicture _ _ _)
  | sound => exact Cells.All.modify_at hd fun object ho => (hd _ _ ho).addSound _ _
  | _ => exact hd

namespace Evaluating

/-- Sprites and text boxes stay apart while nodes that were built are evaluated. -/
theorem Evaluates.unmixed {scope : NodeScope} {forest : List (Tree Nat)} {e e' : Evaluation}
    (h : Evaluates scope forest e e') (hb : ∀ n ∈ Tree.nodesOf forest, n.2.Built) (hd : e.document.Unmixed) :
    e'.document.Unmixed :=
  h.keeps (P := Node.Built) (fun heffect hb hd => heffect.unmixed hb hd) hb hd

end Evaluating

theorem optional_of_isNull {key : String} {v : Value} (h : v.isNull = true) : optional key v = [] := if_pos h

theorem optional_of_not_isNull {key : String} {v : Value} (h : v.isNull = false) : optional key v = [(key, v)] :=
  if_neg (by simp [h])

namespace Document

variable {doc : Document} {object : ObjectEntry} {s s' : Readings} {v : Value}

/-- A text box is laid out as one. -/
theorem isTextBox_of_objectLayout (h : object.IsTextBox) (hv : doc.objectLayout object s = (.ok v, s')) :
    v.IsTextBox := by
  obtain ⟨script, s₁, -, hv⟩ := Attempt.bind_eq_ok_iff.mp hv
  cases hv
  rw [ObjectHead.layout, optional_of_isNull (by rw [h.selectedPicture]; rfl), optional_of_not_isNull h.text]
  constructor
  · rw [Value.member?_object, h.objectType]
    rfl
  · rw [Value.member?_object]
    rfl
  · refine ⟨object.entity.layout, ?_, Entity.isSome_member?_layout h.styling⟩
    rw [Value.member?_object]
    rfl
  · refine ⟨.object [("pictures", .list []), ("sounds", .list (object.sounds.values.map SoundEntry.layout))], ?_, ?_⟩
    · rw [Value.member?_object, h.pictures]
      rfl
    · rw [Value.member?_object]
      rfl
  · rw [Value.member?_object]
    rfl

/-- A sprite is laid out as one, whatever pictures it has. -/
theorem isSprite_of_objectLayout (h : object.IsSprite) (hv : doc.objectLayout object s = (.ok v, s')) :
    v.IsSprite := by
  obtain ⟨script, s₁, -, hv⟩ := Attempt.bind_eq_ok_iff.mp hv
  cases hv
  have htext : optional "text" object.text = [] := optional_of_isNull (by rw [h.text]; rfl)
  rw [ObjectHead.layout, htext, h.objectType]
  constructor
  · rw [Value.member?_object]
    unfold optional
    split <;> rfl
  · rw [Value.member?_object]
    unfold optional
    split <;> rfl
  · obtain ⟨entries, hentity, hnone⟩ := Entity.member?_layout_eq_none h.styling
    refine ⟨entries, ?_, hnone⟩
    rw [Value.member?_object, hentity]
    unfold optional
    split <;> rfl

/-- Every item of the second of two lists that are related item by item is related to one of the first. -/
theorem exists_of_forall₂ {α β : Type} {R : α → β → Prop} {as : List α} {bs : List β} (h : List.Forall₂ R as bs) :
    ∀ b ∈ bs, ∃ a ∈ as, R a b := by
  induction h with
  | nil => exact List.forall_mem_nil _
  | cons hab _ ih =>
    refine List.forall_mem_cons.mpr ⟨⟨_, List.mem_cons_self, hab⟩, fun b hb => ?_⟩
    obtain ⟨a, ha, hR⟩ := ih b hb
    exact ⟨a, List.mem_cons_of_mem _ ha, hR⟩

/-- The objects of a document in which sprites and text boxes are apart are laid out as the ones or the others. -/
theorem Unmixed.layout (h : doc.Unmixed) {data : Value} (hdata : (doc.layout []).1 = .ok data) :
    ∃ objects, data.member? "objects" = some (.list objects) ∧
      ∀ object ∈ objects, object.IsTextBox ∨ object.IsSprite := by
  obtain ⟨objects, functions, tables, hobjects, -, rfl⟩ := exists_of_layout (Prod.ext hdata rfl)
  refine ⟨objects, ?_, fun v hv => ?_⟩
  · rw [ProjectHead.layout, Value.member?_object]
    rfl
  · obtain ⟨object, hobject, _, _, hlaid⟩ := exists_of_forall₂ hobjects v hv
    obtain ⟨index, -, hcell⟩ := List.mem_filterMap.mp hobject
    exact (h index object hcell).imp (isTextBox_of_objectLayout · hlaid) (isSprite_of_objectLayout · hlaid)

end Document

namespace Markup

/-- A header and a block with one node in it. -/
theorem IsHeader.around {ts us : List Token} {node : Node} {child : Tree Unit} (hh : IsHeader ts node)
    (hi : IsNode us child) {o c : Token} (ho : o.kind = .sign .openBrace) (hc : c.kind = .sign .closeBrace) :
    IsNode (ts ++ o :: (us ++ [c])) (.node () node [child]) := by
  have hchildren : IsChildren (us ++ ([] ++ [])) [child] := .some (.node hi) .none (List.forall_mem_nil _)
  have hbody : IsBody (o :: ([] ++ (us ++ ([] ++ []) ++ [c]))) [child] :=
    .block ho (List.forall_mem_nil _) hchildren hc
  rw [List.append_nil, List.append_nil, List.nil_append] at hbody
  exact .block hh hbody

end Markup

namespace Evaluating

/-- A text that is compiled is read. -/
theorem read_of_compileText {text : String} {supply : IdSupply} {doc : Document}
    (h : (compileText text supply).outcome = .ok doc) : ∃ tree, Markup.read text = .ok tree := by
  cases hread : Markup.read text with
  | ok tree => exact ⟨tree, rfl⟩
  | error fault =>
    unfold compileText at h
    rw [hread] at h
    cases h

/-- A text that is compiled gives a document whose objects are, in every layout of text, written as text boxes, with
their text, all of their styling and no pictures, or as sprites, without text and styling. -/
theorem compileText_unmixed {text : String} {supply : IdSupply} {doc : Document}
    (h : (compileText text supply).outcome = .ok doc) :
    ∃ data objects, (doc.layout []).1 = .ok data ∧ (∀ layout, doc.written layout = JsonText.text layout data) ∧
      data.member? "objects" = some (.list objects) ∧ ∀ object ∈ objects, object.IsTextBox ∨ object.IsSprite := by
  obtain ⟨tree, hread⟩ := read_of_compileText h
  have hregular := (Markup.regular_of_read hread).numbered 0
  have hbuilt : ∀ n ∈ Tree.nodesOf [(tree.numbered 0).1], n.2.Built := by
    intro n hn
    rw [Tree.nodesOf, Tree.nodesOf, List.append_nil] at hn
    obtain ⟨n', hn', hsame⟩ := Tree.exists_of_mem_numbered hn
    exact hsame ▸ Markup.built_of_read hread n' hn'
  obtain ⟨e, hcompile⟩ := (compileText_eq_ok_iff hread).mp h
  obtain ⟨t, data, -, -, -, hmirrors, hplan⟩ :=
    shows_of_compileTree (Tree.nodup_marks_numbered 0 tree) hregular.given hcompile
  obtain ⟨notice, e₁, _, readings, he, -, -, -, rfl⟩ := evaluate_of_compileTree hcompile
  have hdata : ((e₁.document.keep readings).layout []).1 = .ok data := (hmirrors.outcome [] []).trans hplan
  have hunmixed : e₁.document.Unmixed := (evaluates_of_evaluate _ he).unmixed hbuilt (Cells.All.empty _)
  -- the references keep what they found, and the objects are as they were
  have hkept : (e₁.document.keep readings).Unmixed := hunmixed
  obtain ⟨objects, hobjects, hapart⟩ := hkept.layout hdata
  refine ⟨data, objects, hdata, fun layout => ?_, hobjects, hapart⟩
  rw [Document.written, Document.text_fst, hdata]
  rfl

/-- The node that some values make. -/
def builtNode (kind : Kind) (given : List (Field × Value)) : Node :=
  (Node.build kind given).toOption.getD (plainNode kind given)

/-- The node that some values make is built of them. -/
theorem build_eq_builtNode {kind : Kind} {given : List (Field × Value)} (h : (Node.build kind given).isOk = true) :
    Node.build kind given = .ok (builtNode kind given) := by
  unfold builtNode
  cases hb : Node.build kind given with
  | error fault =>
    rw [hb] at h
    cases h
  | ok node => rfl

/-- A sprite for which text is given, with a text box in it. -/
def textBoxInSprite : Tree Unit :=
  .node () (builtNode .project [])
    [.node () (builtNode .scene [(.name, .bool true)])
      [.node () (builtNode .sprite [(.name, .bool true), (.text, .bool true)])
        [.node () (builtNode .textBox [(.name, .bool true)]) []]]]

/-- Whether a document has two objects, the first one laid out without text and the second with text. -/
def textInSecond (doc : Document) : Bool :=
  match (doc.layout []).1 with
  | .ok data =>
    match data.member? "objects" with
    | some (.list [first, second]) => (first.member? "text").isNone && (second.member? "text").isSome
    | _ => false
  | .error _ => false

set_option maxRecDepth 10000 in
/-- The sprite has no text although it was given one, and the text box has text although it was given none. -/
theorem compileText_unmixed_textBoxInSprite :
    ∃ doc data sprite textBox,
      (compileText "project\x7bscene name\x7bsprite name text\x7btextbox name\x7d\x7d\x7d"
        ⟨.empty, .counting []⟩).outcome = .ok doc ∧
      (∀ layout, doc.written layout = JsonText.text layout data) ∧
      data.member? "objects" = some (.list [sprite, textBox]) ∧ sprite.IsSprite ∧ textBox.IsTextBox := by
  have hproject : Markup.IsHeader [⟨.name, "project", ⟨1, 1⟩⟩] (builtNode .project []) :=
    .header rfl rfl .none (by decide) (build_eq_builtNode (by decide +kernel))
  have hscene : Markup.IsHeader [⟨.name, "scene", ⟨1, 9⟩⟩, ⟨.name, "name", ⟨1, 15⟩⟩]
      (builtNode .scene [(.name, .bool true)]) :=
    .header rfl (by decide +kernel) (.bare rfl rfl rfl .none) (by decide) (build_eq_builtNode (by decide +kernel))
  have hsprite : Markup.IsHeader [⟨.name, "sprite", ⟨1, 20⟩⟩, ⟨.name, "name", ⟨1, 27⟩⟩, ⟨.name, "text", ⟨1, 32⟩⟩]
      (builtNode .sprite [(.name, .bool true), (.text, .bool true)]) :=
    .header rfl (by decide +kernel) (.bare rfl rfl rfl (.bare rfl rfl rfl .none)) (by decide)
      (build_eq_builtNode (by decide +kernel))
  have htextBox : Markup.IsHeader [⟨.name, "textbox", ⟨1, 37⟩⟩, ⟨.name, "name", ⟨1, 45⟩⟩]
      (builtNode .textBox [(.name, .bool true)]) :=
    .header rfl (by decide +kernel) (.bare rfl rfl rfl .none) (by decide) (build_eq_builtNode (by decide +kernel))
  have hnode := hproject.around
    (hscene.around
      (hsprite.around (.bare htextBox) (o := ⟨.sign .openBrace, "\x7b", ⟨1, 36⟩⟩)
        (c := ⟨.sign .closeBrace, "\x7d", ⟨1, 49⟩⟩) rfl rfl)
      (o := ⟨.sign .openBrace, "\x7b", ⟨1, 19⟩⟩) (c := ⟨.sign .closeBrace, "\x7d", ⟨1, 50⟩⟩) rfl rfl)
    (o := ⟨.sign .openBrace, "\x7b", ⟨1, 8⟩⟩) (c := ⟨.sign .closeBrace, "\x7d", ⟨1, 51⟩⟩) rfl rfl
  have hread : Markup.read "project\x7bscene name\x7bsprite name text\x7btextbox name\x7d\x7d\x7d" =
      .ok textBoxInSprite := by
    refine Markup.read_of_isDocument ?_ (.document (List.forall_mem_nil _) hnode (List.forall_mem_nil _)
      (e := ⟨.ending, "", ⟨1, 52⟩⟩) rfl)
    cbv
  have hrun : (compileTree (textBoxInSprite.numbered 0).1 ⟨.empty, .counting []⟩).1.toOption.any
      textInSecond = true := by decide +kernel
  rcases hc : compileTree (textBoxInSprite.numbered 0).1 ⟨.empty, .counting []⟩ with ⟨_ | doc, e⟩
  · rw [hc] at hrun
    cases hrun
  · have hdoc := (compileText_eq_ok_iff hread).mpr ⟨e, hc⟩
    obtain ⟨data, objects, hdata, hwritten, hobjects, hapart⟩ := compileText_unmixed hdoc
    have hsecond : textInSecond doc = true := by
      rw [hc] at hrun
      exact hrun
    simp only [textInSecond, hdata, hobjects] at hsecond
    split at hsecond
    · next sprite textBox hlist =>
      cases hlist
      rw [Bool.and_eq_true, Option.isNone_iff_eq_none] at hsecond
      simp only [List.forall_mem_cons] at hapart
      refine ⟨doc, data, sprite, textBox, hdoc, hwritten, hobjects, hapart.1.resolve_left fun h => ?_,
        hapart.2.1.resolve_right fun h => ?_⟩
      · have htext := h.text
        rw [hsecond.1] at htext
        cases htext
      · rw [h.text] at hsecond
        cases hsecond.2
    · cases hsecond

end Evaluating

end SceneTree
