import SceneTree.Proofs.Containment.Encoding
import SceneTree.Proofs.Containment.Typing
import SceneTree.Proofs.Translation.Channel

/-!
# Scripts and names

The parts of scripts that a tree describes can be encoded if and only if every name in them is the name of something.
One direction goes down a tree: what is inside a block that can be encoded can be encoded, down to the named parameters,
and where there is no block around it there is nothing to encode. The other goes up.
-/

namespace SceneTree

/-- All parts of scripts have a property. -/
structure Parts.All (P : Value → Prop) (parts : Parts) : Prop where
  statements : ∀ v ∈ parts.statements, P v
  params : ∀ v ∈ parts.params, P v

theorem Parts.All.none (P : Value → Prop) : Parts.none.All P :=
  ⟨List.forall_mem_nil _, List.forall_mem_nil _⟩

theorem Parts.all_append {P : Value → Prop} {a b : Parts} : (a.append b).All P ↔ a.All P ∧ b.All P := by
  constructor
  · intro h
    have hs : (∀ v ∈ a.statements, P v) ∧ ∀ v ∈ b.statements, P v := List.forall_mem_append.mp h.statements
    have hp : (∀ v ∈ a.params, P v) ∧ ∀ v ∈ b.params, P v := List.forall_mem_append.mp h.params
    exact ⟨⟨hs.1, hp.1⟩, ⟨hs.2, hp.2⟩⟩
  · rintro ⟨ha, hb⟩
    exact ⟨List.forall_mem_append.mpr ⟨ha.statements, hb.statements⟩,
      List.forall_mem_append.mpr ⟨ha.params, hb.params⟩⟩

section

open Branch

variable {b : Branch} {above : List Branch} {forest : List (Tree Value)} {names names₀ : Names} {inner : Parts}

/-- Where no block is around, no parameter is given. -/
theorem Tree.params_eq_nil (h : Tree.EverywhereIn Branch.Placed above forest) (hb : ¬ InBlock above) :
    (Tree.partsOf names forest).params = [] := by
  induction forest using Tree.forest_induction generalizing above with
  | nil => rfl
  | literal v rest ih => exact ih ((Tree.everywhereIn_literal v).mp h) hb
  | node b rest ihc ihr =>
    obtain ⟨hplaced, hchildren, hrest⟩ := Tree.everywhereIn_node.mp h
    have hown : (b.parts names (Tree.partsOf names b.children)).params = [] := by
      unfold Branch.Placed at hplaced
      unfold Branch.parts
      match hk : b.kind with
      | .fragment | .project | .scene =>
        refine ihc hchildren fun hin => ?_
        rcases inBlock_cons.mp hin with hp | ⟨-, hin⟩
        · rw [hk] at hp
          cases hp
        · exact hb hin
      | .script | .param | .variableParam | .objectParam =>
        rw [hk] at hplaced
        exact absurd hplaced hb
      | .pictureParam | .soundParam =>
        rw [hk] at hplaced
        exact absurd hplaced.1 hb
      | .node | .object | .sprite | .textBox | .picture | .sound | .variable | .message | .function | .localVariable
      | .table | .statement | .namedParam => rfl
    change (b.parts names (Tree.partsOf names b.children)).params ++ (Tree.partsOf names rest).params = []
    rw [hown, ihr hrest hb]
    rfl

/-- Where there is neither object nor function around, there are no statements. -/
theorem Tree.statements_eq_nil (h : Tree.EverywhereIn Branch.Placed above forest)
    (ho : ¬ ∃ a ∈ above, a.kind.isOwner = true) : (Tree.partsOf names forest).statements = [] := by
  induction forest using Tree.forest_induction generalizing above with
  | nil => rfl
  | literal v rest ih => exact ih ((Tree.everywhereIn_literal v).mp h) ho
  | node b rest ihc ihr =>
    obtain ⟨hplaced, hchildren, hrest⟩ := Tree.everywhereIn_node.mp h
    have hown : (b.parts names (Tree.partsOf names b.children)).statements = [] := by
      unfold Branch.Placed at hplaced
      unfold Branch.parts
      match hk : b.kind with
      | .fragment | .project | .scene =>
        refine ihc hchildren fun hin => ?_
        rcases exists_mem_cons.mp hin with howner | hin
        · rw [hk] at howner
          cases howner
        · exact ho hin
      | .statement =>
        rw [hk] at hplaced
        exact absurd hplaced ho
      | .node | .object | .sprite | .textBox | .picture | .sound | .variable | .message | .function | .localVariable
      | .table | .script | .param | .namedParam | .variableParam | .objectParam | .pictureParam | .soundParam => rfl
    change (b.parts names (Tree.partsOf names b.children)).statements ++ (Tree.partsOf names rest).statements = []
    rw [hown, ihr hrest ho]
    rfl

/-- Plain values give no parts of scripts. -/
theorem Tree.partsOf_of_nodesOf (h : Tree.nodesOf forest = []) : Tree.partsOf names forest = .none := by
  induction forest with
  | nil => rfl
  | cons t rest ih =>
    rw [Tree.nodesOf, List.append_eq_nil_iff] at h
    cases t with
    | node id data children => cases h.1
    | literal v =>
      rw [Tree.partsOf, ih h.2]
      rfl

/-- Names mean below anything but an object what they mean there. -/
theorem Branch.namesBelow_of_not_isObject (hk : b.kind.isObject = false) : b.namesBelow names = names := by
  rw [Branch.namesBelow, hk]
  rfl

/-- Below an object names mean the same, whatever objects are around it. -/
theorem Branch.namesBelow_namesBelowAll (hk : b.kind.isObject = true) :
    b.namesBelow (namesBelowAll names₀ above) = b.namesBelow names₀ := by
  have hsame : (namesBelowAll names₀ above).globals = names₀.globals ∧
      (namesBelowAll names₀ above).objects = names₀.objects := by
    induction above with
    | nil => exact ⟨rfl, rfl⟩
    | cons a rest ih =>
      change (a.namesBelow (namesBelowAll names₀ rest)).globals = _ ∧
        (a.namesBelow (namesBelowAll names₀ rest)).objects = _
      unfold Branch.namesBelow
      split <;> exact ih
  unfold Branch.namesBelow
  rw [if_pos hk, if_pos hk, hsame.1, hsame.2]

/-- What is inside a node that can be encoded, and whose own script or content can be, can be encoded. -/
theorem Branch.inner_encodable (hholds : b.Holds) (hchildren : Tree.EverywhereIn Branch.Placed (b :: above) b.children)
    (hown : (b.parts names (Tree.partsOf names b.children)).All Value.Encodable)
    (howner : b.kind.isOwner = true →
      ∀ v ∈ (Tree.partsOf (b.namesBelow names) b.children).statements, v.Encodable) :
    (Tree.partsOf (b.namesBelow names) b.children).All Value.Encodable := by
  unfold Branch.parts at hown
  match hk : b.kind with
  | .fragment | .project | .scene =>
    rw [hk] at hown
    rw [namesBelow_of_not_isObject (by rw [hk]; rfl)]
    exact hown
  | .statement =>
    rw [hk] at hown
    rw [namesBelow_of_not_isObject (by rw [hk]; rfl)]
    have hslot := hown.statements _ List.mem_cons_self
    exact ⟨fun v hv => hown.statements v (List.mem_cons_of_mem _ hv), hslot.slot⟩
  | .script =>
    rw [hk] at hown
    rw [namesBelow_of_not_isObject (by rw [hk]; rfl)]
    have hscript := (hown.params _ List.mem_cons_self).script
    exact ⟨hscript.2.slot, hscript.1.slot⟩
  | .object | .sprite | .textBox | .function =>
    have hk' : b.kind.isOwner = true := by rw [hk]; rfl
    refine ⟨howner hk', ?_⟩
    rw [Tree.params_eq_nil hchildren (not_inBlock_of_isOwner hk')]
    exact List.forall_mem_nil _
  | .node | .picture | .sound | .variable | .message | .localVariable | .table | .param | .namedParam | .variableParam
  | .objectParam | .pictureParam | .soundParam =>
    rw [Tree.partsOf_of_nodesOf (hholds.nodes (by rw [hk]; rfl))]
    exact .none _

/-- Where all parts of scripts can be encoded, every name on a parameter is the name of something. -/
theorem Tree.resolves_of_encodable {scene : Value}
    (h : Tree.EverywhereIn (fun above b => b.Placed above ∧ b.Holds) above forest)
    (hnames : names = namesBelowAll names₀ above) (hparts : (Tree.partsOf names forest).All Value.Encodable)
    (hobjects : ∀ o ∈ Tree.gatherOf Branch.sceneBelow (Branch.object? names₀) scene forest,
      ∀ v ∈ o.script, v.Encodable)
    (hfunctions : ∀ f ∈ Tree.gatherOf Branch.namesBelow Branch.function? names forest,
      ∀ v ∈ f.content, v.Encodable) : Tree.EverywhereIn (Branch.Resolves names₀) above forest := by
  induction forest using Tree.forest_induction generalizing above names scene with
  | nil => exact Tree.everywhereIn_nil
  | literal v rest ih =>
    have hparts' : (Tree.partsOf names rest).All Value.Encodable := (Parts.all_append.mp hparts).2
    exact (Tree.everywhereIn_literal v).mpr
      (ih ((Tree.everywhereIn_literal v).mp h) hnames hparts' hobjects hfunctions)
  | node b rest ihc ihr =>
    obtain ⟨⟨hplaced, hholds⟩, hchildren, hrest⟩ := Tree.everywhereIn_node.mp h
    obtain ⟨hown, hparts'⟩ := Parts.all_append.mp hparts
    have hown : (b.parts names (Tree.partsOf names b.children)).All Value.Encodable := hown
    rw [Tree.gatherOf_node] at hobjects hfunctions
    -- an object or a function has a script of its own
    have howner : b.kind.isOwner = true →
        ∀ v ∈ (Tree.partsOf (b.namesBelow names) b.children).statements, v.Encodable := by
      intro hk
      by_cases ho : b.kind.isObject = true
      · rw [hnames, namesBelow_namesBelowAll ho]
        refine hobjects (b.object names₀ scene) (List.mem_append_left _ ?_)
        rw [Branch.object?, if_pos ho]
        exact List.mem_singleton_self _
      · rw [Bool.not_eq_true] at ho
        have hf : b.kind = .function := by simpa [Kind.isOwner, ho] using hk
        rw [namesBelow_of_not_isObject ho]
        refine hfunctions (b.function names) (List.mem_append_left _ ?_)
        rw [Branch.function?, if_pos hf]
        exact List.mem_singleton_self _
    have hinner := Branch.inner_encodable hholds (hchildren.mp fun _ _ hb => hb.1) hown howner
    refine Tree.everywhereIn_node.mpr ⟨?_, ?_, ?_⟩
    · intro hk
      rw [← hnames]
      have hlookup : b.lookup names ∈ (b.parts names (Tree.partsOf names b.children)).params := by
        unfold Branch.Placed at hplaced
        unfold Branch.parts
        cases hk' : b.kind with
        | variableParam | objectParam | pictureParam | soundParam => exact List.mem_singleton_self _
        | namedParam =>
          rw [hk'] at hplaced
          exact hplaced.elim
        | _ =>
          rw [hk'] at hk
          cases hk
      exact (hown.params _ hlookup).lookup
    · have hobjects' : ∀ o ∈ Tree.gatherOf Branch.sceneBelow (Branch.object? names₀) (b.sceneBelow scene) b.children,
          ∀ v ∈ o.script, v.Encodable :=
        fun o ho => hobjects o (List.mem_append_right _ (List.mem_append_left _ ho))
      exact ihc hchildren (by rw [hnames]; rfl) hinner hobjects' fun f hf =>
        hfunctions f (List.mem_append_right _ (List.mem_append_left _ hf))
    · have hobjects' : ∀ o ∈ Tree.gatherOf Branch.sceneBelow (Branch.object? names₀) scene rest,
          ∀ v ∈ o.script, v.Encodable :=
        fun o ho => hobjects o (List.mem_append_right _ (List.mem_append_right _ ho))
      exact ihr hrest hnames hparts' hobjects' fun f hf =>
        hfunctions f (List.mem_append_right _ (List.mem_append_right _ hf))

/-- The ids that names may mean are plain data. -/
structure Names.Plain (names : Names) : Prop where
  globals : ∀ p ∈ names.globals, p.1.isJson = true
  objects : ∀ p ∈ names.objects, p.1.isJson = true
  pictures : ∀ p ∈ names.pictures, p.1.isJson = true
  sounds : ∀ p ∈ names.sounds, p.1.isJson = true

/-- What the name of a parameter may mean is plain. -/
theorem Names.Plain.candidates (h : names.Plain) (b : Branch) : ∀ p ∈ b.candidates names, p.1.isJson = true := by
  unfold Branch.candidates
  generalize b.kind = kind
  match kind with
  | .variableParam => exact h.globals
  | .objectParam => exact h.objects
  | .pictureParam => exact h.pictures
  | .soundParam => exact h.sounds
  | .node | .fragment | .project | .scene | .object | .sprite | .textBox | .picture | .sound | .variable | .message
  | .function | .localVariable | .table | .statement | .script | .param | .namedParam =>
    exact List.forall_mem_nil _

/-- The value of a typed parameter is plain. -/
theorem Branch.Typed.isJson_paramValue (h : b.Typed) :
    (b.node.paramValue (Tree.literals b.children)).isJson = true := by
  unfold Node.paramValue Node.paramValues
  split
  · cases hl : Tree.literals b.children with
    | nil => rfl
    | cons v rest => exact h.literals v (by rw [hl]; exact List.mem_cons_self)
  · exact h.node.json .value

/-- A typed script is plain but for what is inside it. -/
theorem Branch.Typed.isJson_scriptHead (h : b.Typed) (p s : Value) (hp : p.isJson = true) (hs : s.isJson = true) :
    ((b.node.scriptHead b.id).layout p s).isJson = true := by
  have hx : (Value.list (b.node.get .extensions).itemList).isJson = true :=
    Value.isJson_list.mpr (Value.isJson_itemList (h.node.json .extensions))
  refine Value.isJson_object.mpr ?_
  simp only [Node.scriptHead, List.forall_mem_cons, h.id.isJson, h.node.json, hp, hs, hx, true_and]
  exact List.forall_mem_nil _

/-- What a node without a script of its own gives to what is around it has an encoding if what is inside it has. -/
theorem Branch.parts_encode (ht : b.Typed) (hr : b.Resolves names₀ above) (hnames : names = namesBelowAll names₀ above)
    (hplain : names.Plain) (hinner : b.kind.isObject = false → inner.All Value.Encodes) :
    (b.parts names inner).All Value.Encodes := by
  unfold Branch.parts
  match hk : b.kind with
  | .fragment | .project | .scene => exact hinner (by rw [hk]; rfl)
  | .statement =>
    have hinner := hinner (by rw [hk]; rfl)
    exact ⟨List.forall_mem_cons.mpr ⟨.slot hinner.params, hinner.statements⟩,
      List.forall_mem_nil _⟩
  | .script =>
    have hinner := hinner (by rw [hk]; rfl)
    refine ⟨List.forall_mem_nil _, List.forall_mem_singleton.mpr ?_⟩
    exact .script (.slot hinner.params) (.slot hinner.statements) ht.isJson_scriptHead
  | .param =>
    exact ⟨List.forall_mem_nil _, List.forall_mem_singleton.mpr (.of_isJson ht.isJson_paramValue)⟩
  | .variableParam | .objectParam | .pictureParam | .soundParam =>
    refine ⟨List.forall_mem_nil _, List.forall_mem_singleton.mpr ?_⟩
    have hfound := hr (by rw [hk]; rfl)
    rw [← hnames] at hfound
    exact .lookup hfound (hplain.candidates b)
  | .node | .object | .sprite | .textBox | .picture | .sound | .variable | .message | .function | .localVariable
  | .table | .namedParam => exact .none _

/-- Where every name on a parameter is the name of something, all parts of scripts have an encoding. -/
theorem Tree.parts_encode (h : Tree.EverywhereIn (fun above b => b.Typed ∧ b.Resolves names₀ above) above forest)
    (hnames : names = namesBelowAll names₀ above) (hplain : names.Plain) :
    (Tree.partsOf names forest).All Value.Encodes := by
  induction forest using Tree.forest_induction generalizing above with
  | nil => exact .none _
  | literal v rest ih => exact Parts.all_append.mpr ⟨.none _, ih ((Tree.everywhereIn_literal v).mp h) hnames⟩
  | node b rest ihc ihr =>
    obtain ⟨⟨ht, hr⟩, hchildren, hrest⟩ := Tree.everywhereIn_node.mp h
    refine Parts.all_append.mpr ⟨?_, ihr hrest hnames⟩
    refine Branch.parts_encode ht hr hnames hplain fun hk => ihc hchildren ?_
    rw [hnames]
    exact (Branch.namesBelow_of_not_isObject hk).symm

end

end SceneTree
