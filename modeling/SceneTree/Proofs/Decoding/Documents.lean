import SceneTree.Proofs.Decoding.Values
import SceneTree.Proofs.Markup.RoundTrip
import SceneTree.Proofs.Regularity.Layouts
import SceneTree.Proofs.References.Resolution

/-!
# Documents are decoded as they are laid out

What is written for a document is read as its layout in every layout of text, and the scripts and contents that stand in
it as texts are read once more as what the blocks behind them are encoded as.
-/

namespace SceneTree

namespace Json

/-- A text that an object gives to a key is the JSON of what a value is encoded as. -/
def Embeds (j : Json) (key : String) (blocks : Value) : Prop :=
  ∃ script data inner, j.get? key = some (.string script) ∧ (blocks.encode []).1 = .ok data ∧
    data.toJson? = some inner ∧ JsonText.read script = some inner

end Json

/-- A document decodes to a value of JSON: its layout is that value, the text in every layout that is not too wide is
read as it, and the scripts and contents in it are read as the encodings of the document's blocks. -/
structure Document.DecodesTo (doc : Document) (j : Json) : Prop where
  layout : ∃ data, (doc.layout []).1 = .ok data ∧ data.toJson? = some j
  written : ∀ indent, (JsonText.Layout.ofIndent indent).isShort = true →
    (JsonText.Layout.ofIndent indent).isHoldable = true → ∃ text, doc.written (.ofIndent indent) = .ok text
  read : ∀ indent text, doc.written (.ofIndent indent) = .ok text → JsonText.read text = some j
  objects : ∃ items, j.get? "objects" = some (.array items) ∧
    List.Forall₂ (fun object item => item.Embeds "script" (doc.slotValue object.blocks)) doc.objectEntries items
  functions : ∃ items, j.get? "functions" = some (.array items) ∧
    List.Forall₂ (fun function item => item.Embeds "content" (doc.slotValue function.content)) doc.functionEntries
      items

namespace JsonText

/-- What a map gives to a key is what its object gives to it. -/
theorem exists_get?_of_lookup {entries : List (String × Value)} {j : Json}
    (hj : (Value.object entries).toJson? = some j) (key : String) {v : Value} (hv : entries.lookup key = some v) :
    ∃ i, v.toJson? = some i ∧ j.get? key = some i := by
  rw [Value.object, Value.toJson?] at hj
  obtain ⟨pairs, hpairs, rfl⟩ := Option.map_eq_some_iff.mp hj
  clear hj
  induction entries generalizing pairs with
  | nil => cases hv
  | cons p entries ih =>
    simp only [List.map_cons, Value.toJsonEntries?, Option.bind_eq_bind, Option.bind_eq_some_iff,
      Option.some.injEq] at hpairs
    obtain ⟨i, hi, pairs, hrest, rfl⟩ := hpairs
    rw [List.lookup_cons] at hv
    rw [Json.get?, List.lookup_cons]
    split at hv
    · next hkey =>
      obtain rfl := Option.some.inj hv
      exact ⟨i, hi, rfl⟩
    · next hkey =>
      obtain ⟨i', hi', hget⟩ := ih hv pairs hrest
      exact ⟨i', hi', hget⟩

/-- The items of a list are those of its array. -/
theorem forall₂_of_toJsons? {vs : List Value} {js : List Json} (h : Value.toJsons? vs = some js) :
    List.Forall₂ (fun v j => v.toJson? = some j) vs js := by
  induction vs generalizing js with
  | nil =>
    obtain rfl := Option.some.inj h
    exact .nil
  | cons v vs ih =>
    simp only [Value.toJsons?, Option.bind_eq_bind, Option.bind_eq_some_iff, Option.some.injEq] at h
    obtain ⟨j, hj, js, hjs, rfl⟩ := h
    exact .cons hj (ih hjs)

end JsonText

namespace Document

variable {doc : Document} {s s' : Readings}

/-- Things that are laid out in a row are each laid out. -/
theorem forall₂_of_layoutEach {α : Type} {layout : α → Attempt Readings Value} {as : List α} {vs : List Value}
    (h : layoutEach layout as s = (.ok vs, s')) :
    List.Forall₂ (fun a v => ∃ s₁ s₂, layout a s₁ = (.ok v, s₂)) as vs := by
  induction as generalizing s s' vs with
  | nil =>
    cases h
    exact .nil
  | cons a rest ih =>
    rw [layoutEach] at h
    obtain ⟨v, s₁, hv, h⟩ := Attempt.bind_eq_ok_iff.mp h
    obtain ⟨vs', s₂, hrest, h⟩ := Attempt.bind_eq_ok_iff.mp h
    cases h
    exact .cons ⟨s, s₁, hv⟩ (ih hrest)

/-- The layout of a document is made up of the layouts of its objects and functions. -/
theorem exists_of_layout {data : Value} (h : doc.layout s = (.ok data, s')) :
    ∃ objects functions tables,
      List.Forall₂ (fun object v => ∃ s₁ s₂, doc.objectLayout object s₁ = (.ok v, s₂)) doc.objectEntries objects ∧
      List.Forall₂ (fun function v => ∃ s₁ s₂, doc.functionLayout function s₁ = (.ok v, s₂)) doc.functionEntries
        functions ∧
      data = doc.head.layout (doc.scenes.values.map SceneEntry.layout) objects
        (doc.globals.values.map VariableEntry.layout) (doc.messages.values.map MessageEntry.layout) functions
        tables := by
  obtain ⟨objects, s₁, hobjects, h⟩ := Attempt.bind_eq_ok_iff.mp h
  obtain ⟨functions, s₂, hfunctions, h⟩ := Attempt.bind_eq_ok_iff.mp h
  obtain ⟨tables, s₃, -, h⟩ := Attempt.bind_eq_ok_iff.mp h
  cases h
  exact ⟨objects, functions, tables, forall₂_of_layoutEach hobjects, forall₂_of_layoutEach hfunctions, rfl⟩

/-- What keeps of a document does not touch its values. -/
theorem Bears.keep {M : Entries → Prop} (h : doc.Bears M) (readings : Readings) : (doc.keep readings).Bears M :=
  ⟨h.head, h.interface, h.scenes, h.globals, h.messages, h.tables, h.objects, h.functions, h.items⟩

/-- A text of blocks that a regular document shows is read as what the blocks are encoded as. -/
theorem Bears.embeds {M : Entries → Prop} (h : doc.Bears M) (hh : doc.Honest) {place : Nat} {script : String}
    {w : Value} {j : Json} {key : String} (hreads : (doc.slotValue place).Reads doc.Right w)
    (hscript : (doc.slotValue place).dump s = (.ok script, s')) (hkey : j.get? key = some (.string script)) :
    j.Embeds key (doc.slotValue place) := by
  obtain ⟨data, s₁, hdata, htext⟩ := Attempt.bind_eq_ok_iff.mp hscript
  have hsame : ((doc.slotValue place).encode []).1 = .ok data := by
    rw [hreads.outcome [] [], ← hreads.outcome s [], hdata]
  rcases h.slotValue_yields hh place [] with ⟨data', hdata', hregular⟩ | ⟨kind, name, herror⟩
  · obtain rfl := Except.ok.inj (hsame.symm.trans hdata')
    obtain ⟨inner, hinner⟩ := JsonText.exists_toJson? hregular
    have htext : JsonText.text .compact data = .ok script := congrArg Prod.fst htext
    exact ⟨script, data, inner, hkey, hsame, hinner, JsonText.read_text hregular hinner htext⟩
  · rw [hsame] at herror
    cases herror

/-- The layout of an object is read with its script. -/
theorem Bears.embeds_object {M : Entries → Prop} (h : doc.Bears M) (hh : doc.Honest) {object : ObjectEntry}
    {plan : ObjectPlan} (hshows : doc.ShowsObject object plan) {v : Value} {j : Json}
    (hv : doc.objectLayout object s = (.ok v, s')) (hj : v.toJson? = some j) :
    j.Embeds "script" (doc.slotValue object.blocks) := by
  obtain ⟨script, s₁, hscript, hv⟩ := Attempt.bind_eq_ok_iff.mp hv
  cases hv
  obtain ⟨i, hi, hget⟩ := JsonText.exists_get?_of_lookup (v := .str script) hj "script" rfl
  cases hi
  exact h.embeds hh hshows.script hscript hget

/-- The layout of a function is read with its content. -/
theorem Bears.embeds_function {M : Entries → Prop} (h : doc.Bears M) (hh : doc.Honest) {function : FunctionEntry}
    {plan : FunctionPlan} (hshows : doc.ShowsFunction function plan) {v : Value} {j : Json}
    (hv : doc.functionLayout function s = (.ok v, s')) (hj : v.toJson? = some j) :
    j.Embeds "content" (doc.slotValue function.content) := by
  obtain ⟨content, s₁, hcontent, hv⟩ := Attempt.bind_eq_ok_iff.mp hv
  cases hv
  obtain ⟨i, hi, hget⟩ := JsonText.exists_get?_of_lookup (v := .str content) hj "content" (by split <;> rfl)
  cases hi
  exact h.embeds hh hshows.content hcontent hget

/-- What is true of things and what they are laid out as, and of these and what they are in JSON. -/
theorem forall₂_of_forall₂ {α β γ δ : Type} {R : α → β → Prop} {S : α → γ → Prop} {T : γ → δ → Prop}
    {U : α → δ → Prop} {as : List α} {bs : List β} {cs : List γ} {ds : List δ} (hR : List.Forall₂ R as bs)
    (hS : List.Forall₂ S as cs) (hT : List.Forall₂ T cs ds) (hU : ∀ a b c d, R a b → S a c → T c d → U a d) :
    List.Forall₂ U as ds := by
  induction hR generalizing cs ds with
  | nil =>
    cases hS
    cases hT
    exact .nil
  | cons hab _ ih =>
    cases hS with
    | cons hac hS =>
      cases hT with
      | cons hcd hT => exact .cons (hU _ _ _ _ hab hac hcd) (ih hS hT)

/-- A regular document that shows a plan and has a layout decodes to that. -/
theorem Bears.decodes (h : doc.Bears fun entries => (Value.map entries).Regular) (hh : doc.Honest) {plan : Plan}
    (hshows : doc.Shows plan) {data : Value} (hdata : (doc.layout []).1 = .ok data) : ∃ j, doc.DecodesTo j := by
  have hregular : data.Regular := by
    rcases h.layout_yields (fun _ => Value.Regular.presentable) hh [] with ⟨v, hv, objects, functions, ho, hf, rfl⟩ |
      ⟨kind, name, herror⟩
    · obtain rfl := Except.ok.inj (hdata.symm.trans hv)
      exact h.regular_layoutOf ho hf
    · rw [hdata] at herror
      cases herror
  obtain ⟨j, hj⟩ := JsonText.exists_toJson? hregular
  have hwritten (layout : JsonText.Layout) : doc.written layout = JsonText.text layout data := by
    rw [Document.written, Document.text_fst, hdata]
    rfl
  obtain ⟨objects, functions, tables, hobjects, hfunctions, rfl⟩ := exists_of_layout (Prod.ext hdata rfl)
  refine ⟨j, ⟨_, hdata, hj⟩, fun indent hs hold => ?_, fun indent t ht => ?_, ?_, ?_⟩
  · rw [hwritten]
    exact JsonText.text_of_isJson _ hregular.isJson hs hold
  · rw [hwritten] at ht
    exact JsonText.read_text hregular hj ht
  · obtain ⟨i, hi, hget⟩ := JsonText.exists_get?_of_lookup (v := .list objects) hj "objects" rfl
    rw [Value.toJson?] at hi
    obtain ⟨items, hitems, rfl⟩ := Option.map_eq_some_iff.mp hi
    refine ⟨items, hget, forall₂_of_forall₂ hshows.objects hobjects
      (JsonText.forall₂_of_toJsons? hitems) ?_⟩
    rintro object plan v item hplan ⟨_, _, hv⟩ hitem
    exact h.embeds_object hh hplan hv hitem
  · obtain ⟨i, hi, hget⟩ := JsonText.exists_get?_of_lookup (v := .list functions) hj "functions" rfl
    rw [Value.toJson?] at hi
    obtain ⟨items, hitems, rfl⟩ := Option.map_eq_some_iff.mp hi
    refine ⟨items, hget, forall₂_of_forall₂ hshows.functions hfunctions
      (JsonText.forall₂_of_toJsons? hitems) ?_⟩
    rintro function plan v item hplan ⟨_, _, hv⟩ hitem
    exact h.embeds_function hh hplan hv hitem

end Document

/-- A node gives maps where maps are laid out as they were given. -/
structure Node.GivesMaps (node : Node) : Prop where
  interface : node.kind = .project → ∃ entries, node.get .interface = .map entries
  data : node.kind = .table → ∃ entries, node.get .data = .map entries

/-- What a regular node hands over is regular if it gives maps. -/
theorem Node.GivesMaps.hands {node : Node} (h : node.GivesMaps) (hr : node.Regular) :
    node.Hands fun entries => (Value.map entries).Regular := by
  have hmap {field : Field} (h : ∃ entries, node.get field = .map entries) :
      (Value.map (node.get field).entryList).Regular := by
    obtain ⟨entries, he⟩ := h
    have hregular := hr field
    rw [he] at hregular ⊢
    exact hregular
  exact ⟨fun hk => hmap (h.interface hk), fun hk => hmap (h.data hk)⟩

namespace Evaluating

/-- A text is compiled if the tree that is read from it is, with numbers on its nodes. -/
theorem compileText_eq_ok_iff {text : String} {tree : Tree Unit} {supply : IdSupply} {doc : Document}
    (h : Markup.read text = .ok tree) :
    (compileText text supply).outcome = .ok doc ↔ ∃ e, compileTree (tree.numbered 0).1 supply = (.ok doc, e) := by
  have houtcome : (compileText text supply).outcome =
      (compileTree (tree.numbered 0).1 supply).1.mapError .tree := by
    unfold compileText
    rw [h]
  rw [houtcome]
  constructor
  · intro hok
    rcases hc : compileTree (tree.numbered 0).1 supply with ⟨_ | doc', e⟩
    · rw [hc] at hok
      cases hok
    · rw [hc] at hok
      cases hok
      exact ⟨e, rfl⟩
  · rintro ⟨e, he⟩
    rw [he]
    rfl

/-- A text that is compiled, in which interfaces and tables are maps, gives a document that decodes to its layout. -/
theorem decodes_of_compileText {text : String} {tree : Tree Unit} {supply : IdSupply} {doc : Document}
    (hread : Markup.read text = .ok tree) (hmaps : ∀ n ∈ tree.nodes, n.2.GivesMaps)
    (h : (compileText text supply).outcome = .ok doc) : ∃ j, doc.DecodesTo j := by
  have hregular := (Markup.regular_of_read hread).numbered 0
  obtain ⟨e, hcompile⟩ := (compileText_eq_ok_iff hread).mp h
  have hM : Showable fun entries => (Value.map entries).Regular :=
    ⟨@Value.Regular.object [] List.nodup_nil (List.forall_mem_nil _), fun hm hid => hm.put hid⟩
  have hforest : Tree.AllRegular [(tree.numbered 0).1] := ⟨hregular, trivial⟩
  have hnodes : Tree.nodesOf [(tree.numbered 0).1] = (tree.numbered 0).1.nodes := List.append_nil _
  have hhands : ∀ n ∈ Tree.nodesOf [(tree.numbered 0).1], n.2.Hands fun entries => (Value.map entries).Regular := by
    intro n hn
    obtain ⟨n', hn', hsame⟩ := Tree.exists_of_mem_numbered (hnodes ▸ hn)
    exact (hsame ▸ hmaps n' hn').hands (hforest.of_mem_nodesOf n hn)
  obtain ⟨t, layout, -, hhonest, hshows, hmirrors, hplan⟩ :=
    shows_of_compileTree (Tree.nodup_marks_numbered 0 tree) hregular.given hcompile
  obtain ⟨notice, e₁, _, readings, he, -, -, -, rfl⟩ := evaluate_of_compileTree hcompile
  have heval := evaluates_of_evaluate _ he
  have hbears := (heval.bearing hM hforest hhands (bearing_begun hM supply notice)).document
  exact (hbears.keep readings).decodes hhonest hshows ((hmirrors.outcome [] []).trans hplan)

/-- A node with the values that are given on it. -/
def givenNode (kind : Kind) (given : List (Field × Value)) (children : List (Tree (List (Field × Value)))) :
    Tree (List (Field × Value)) :=
  .node given (plainNode kind given) children

/-- A project with a quote for its name. The script of its object has a quote for a parameter, and its function has a
thread that is empty. -/
def quotedProject : Tree (List (Field × Value)) :=
  givenNode .project [(.name, .str "\"")]
    [givenNode .scene [(.name, .str "s")]
      [givenNode .sprite [(.name, .str "o"), (.regX, .int 0), (.regY, .int 0)]
        [givenNode .statement []
          [givenNode .script [(.type, .str "t")] [givenNode .param [] [.literal (.str "\"")]]]]],
      givenNode .function [] [givenNode .statement [] []]]

theorem treeIsWritable_quotedProject : Markup.TreeIsWritable quotedProject := by
  have hlabel (field : Field) (s : String) : ∀ pair ∈ [(field, Value.str s)], Markup.IsWritable pair.2 :=
    List.forall_mem_singleton.mpr trivial
  have hnode (kind : Kind) (given : List (Field × Value)) {children : List (Tree (List (Field × Value)))}
      (hkind : kind ∈ Kind.words.map (·.2)) (hd : (given.map (·.1)).Nodup)
      (hw : ∀ pair ∈ given, Markup.IsWritable pair.2) (hbuild : Node.build kind given = .ok (plainNode kind given))
      (hc : Markup.TreesAreWritable children) : Markup.TreeIsWritable (givenNode kind given children) :=
    ⟨hkind, hd, hw, hbuild, hc⟩
  have hsingle {t : Tree (List (Field × Value))} (h : Markup.TreeIsWritable t) : Markup.TreesAreWritable [t] :=
    ⟨h, trivial⟩
  have hquote : Markup.TreeIsWritable (.literal (.str "\"")) := trivial
  have hparam := hnode .param [] (by decide) (by decide) nofun rfl (hsingle hquote)
  have hscript := hnode .script [(.type, .str "t")] (by decide) (by decide) (hlabel _ _) rfl (hsingle hparam)
  have hstatement := hnode .statement [] (by decide) (by decide) nofun rfl (hsingle hscript)
  have hzero : Markup.IsWritable (.int 0) := by
    change (Nat.toDigits 10 (0 : Int).natAbs).length ≤ Numeral.digitLimit
    decide
  have hsprite := hnode .sprite [(.name, .str "o"), (.regX, .int 0), (.regY, .int 0)] (by decide) (by decide)
    (List.forall_mem_cons.mpr ⟨trivial, List.forall_mem_cons.mpr ⟨hzero, List.forall_mem_singleton.mpr hzero⟩⟩) (by cbv)
    (hsingle hstatement)
  have hscene := hnode .scene [(.name, .str "s")] (by decide) (by decide) (hlabel _ _) rfl (hsingle hsprite)
  have hnone : Markup.TreesAreWritable [] := trivial
  have hthread := hnode .statement [] (by decide) (by decide) nofun rfl hnone
  have hfunction := hnode .function [] (by decide) (by decide) nofun (by cbv) (hsingle hthread)
  have hblock : Markup.TreesAreWritable [_, _] := ⟨hscene, hfunction, trivial⟩
  exact hnode .project [(.name, .str "\"")] (by decide) (by decide) (hlabel _ _) rfl hblock

set_option maxRecDepth 10000 in
/-- The project is read as it is laid out, and so are the script of its object and the content of its function. -/
theorem decodes_of_compileText_quotedProject :
    ∃ doc j, Markup.read (Markup.print .capitals quotedProject) = .ok (Markup.unmarked quotedProject) ∧
      (∀ n ∈ (Markup.unmarked quotedProject).nodes, n.2.GivesMaps) ∧
      (compileText (Markup.print .capitals quotedProject) ⟨.empty, .counting []⟩).outcome = .ok doc ∧
      doc.DecodesTo j := by
  have hread : Markup.read (Markup.print .capitals quotedProject) = .ok (Markup.unmarked quotedProject) := by
    have hblock := Markup.scans_block .capitals _ treeIsWritable_quotedProject.2.2.2.2 Markup.scans_nil
    have hscans := Markup.scans_node .capitals treeIsWritable_quotedProject Markup.apart_nil hblock
    rw [List.append_nil] at hscans
    exact Markup.read_of_scans hscans
  have hmaps : ∀ n ∈ (Markup.unmarked quotedProject).nodes, n.2.GivesMaps := by
    have hothers {kind : Kind} (given : List (Field × Value)) (hp : kind ≠ .project) (ht : kind ≠ .table) :
        (plainNode kind given).GivesMaps := ⟨fun hk => absurd hk hp, fun hk => absurd hk ht⟩
    have hproject : (plainNode .project [(.name, .str "\"")]).GivesMaps :=
      ⟨fun _ => ⟨[], rfl⟩, fun hk => absurd hk (by decide)⟩
    simp only [quotedProject, givenNode, Markup.unmarked, Markup.allUnmarked, Tree.nodes, Tree.nodesOf,
      List.forall_mem_cons, List.append_nil, List.cons_append, List.nil_append]
    exact ⟨hproject, hothers _ (by decide) (by decide), hothers _ (by decide) (by decide),
      hothers _ (by decide) (by decide), hothers _ (by decide) (by decide), hothers _ (by decide) (by decide),
      hothers _ (by decide) (by decide), hothers _ (by decide) (by decide), List.forall_mem_nil _⟩
  have hok : (compileTree ((Markup.unmarked quotedProject).numbered 0).1 ⟨.empty, .counting []⟩).1.isOk = true := by
    decide +kernel
  rcases hc : compileTree ((Markup.unmarked quotedProject).numbered 0).1 ⟨.empty, .counting []⟩ with ⟨_ | doc, e⟩
  · rw [hc] at hok
    cases hok
  · have hdoc := (compileText_eq_ok_iff hread).mpr ⟨e, hc⟩
    obtain ⟨j, hj⟩ := decodes_of_compileText hread hmaps hdoc
    exact ⟨doc, j, hread, hmaps, hdoc, hj⟩

end Evaluating

end SceneTree
