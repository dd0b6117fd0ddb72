import SceneTree.Proofs.Translation.Plan

/-!
# What a contribution does

`Effect` lists what can come of a node that is admitted: for each sort of node one change of the document and one scope
for its children, or none. Whatever is said of contributions from here on is said case by case of effects. What the
scope for the children binds is said for each binding on its own.
-/

namespace SceneTree

/-- What comes of a node in a scope when its handle is `n`: a scope for its children, if it takes any, and a document.
-/
inductive Effect (scope : NodeScope) (n : Handle) (doc : Document) (b : Branch) :
    Option NodeScope → Document → Prop where
  | fragment (hk : b.kind = .fragment) : Effect scope n doc b (some scope) doc
  | project (hk : b.kind = .project) :
      Effect scope n doc b (some (scope.bind .project (some ()))) (doc.populate b.node.projectHead n)
  | scene (hk : b.kind = .scene) (hp : scope.get .project = some ()) :
      Effect scope n doc b (some (scope.bind .sceneId (some b.id))) (doc.addScene n (b.node.sceneEntry b.id))
  | object (hk : b.kind.isObject = true) (hp : scope.get .project = some ()) {scene : Value}
      (hs : scope.get .sceneId = some scene) :
      Effect scope n doc b (some (scope.insideObject doc.objectCells.size doc.parts.size))
        (doc.addPlace.addObject n (b.node.objectEntry b.id scene doc.parts.size) (b.node.get .selected).truthy)
  | picture (hk : b.kind = .picture) {index : Nat} (ho : scope.get .object = some index) {object : ObjectEntry}
      (hc : doc.objectCells.get? index = some object) (ht : object.objectType.isText "sprite" = true) :
      Effect scope n doc b none
        (doc.changeObject index (·.addPicture n (b.node.pictureEntry b.id) (b.node.get .selected).truthy))
  | sound (hk : b.kind = .sound) {index : Nat} (ho : scope.get .object = some index) :
      Effect scope n doc b none (doc.changeObject index (·.addSound n (b.node.soundEntry b.id)))
  | global (hk : b.kind = .variable) (hp : scope.get .project = some ()) :
      Effect scope n doc b none (doc.addVariable n (b.node.variableEntry b.id (doc.ownerIn scope)))
  | message (hk : b.kind = .message) (hp : scope.get .project = some ()) :
      Effect scope n doc b none (doc.addMessage n (b.node.messageEntry b.id))
  | function (hk : b.kind = .function) (hp : scope.get .project = some ()) :
      Effect scope n doc b (some (scope.insideFunction doc.functionCells.size doc.parts.size))
        (doc.addPlace.addFunction n (b.node.functionEntry b.id doc.parts.size))
  | localVariable (hk : b.kind = .localVariable) {index : Nat} (hf : scope.get .function = some index) :
      Effect scope n doc b none
        (doc.changeFunction index (·.addLocal n (b.node.localEntry b.id (doc.functionIn scope))))
  | table (hk : b.kind = .table) (hp : scope.get .project = some ()) :
      Effect scope n doc b none (doc.addTable n (b.node.get .data).entryList)
  | statement (hk : b.kind = .statement) {place : Nat} (hs : scope.get .statements = some (.place place)) :
      Effect scope n doc b (some (scope.insideStatement doc.parts.size))
        (doc.addPlace.putItem place n (.block doc.parts.size))
  | script (hk : b.kind = .script) {place : Nat} (hp : scope.get .params = some (.place place)) :
      Effect scope n doc b (some (scope.insideScript doc.parts.size (doc.parts.size + 1)))
        (doc.addPlace.addPlace.putItem place n
          (.script (b.node.scriptHead b.id) doc.parts.size (doc.parts.size + 1)))
  | param (hk : b.kind = .param) {place : Nat} (hp : scope.get .params = some (.place place)) :
      Effect scope n doc b none (doc.putItem place n (.value (b.node.paramValue (Tree.literals b.children))))
  | named (hk : b.kind.isNamedParam = true) {target : Target}
      (ht : Evaluating.targetIn b.node scope = some target) {place : Nat}
      (hp : scope.get .params = some (.place place)) :
      Effect scope n doc b none
        ((doc.addReference target (Reference.ofName b.node.targetCalled (b.node.get .name))).putItem place n
          (.reference doc.references.size))

namespace Evaluating

/-- A delivery succeeds at places only. -/
theorem of_deliver_eq_ok {collector : Option Collector} {handle : Handle} {item : Item}
    {inner inner' : Option NodeScope} {doc doc' : Document}
    (h : deliver collector handle item inner doc = (.ok inner', doc')) :
    ∃ place, collector = some (.place place) ∧ inner' = inner ∧ doc' = doc.putItem place handle item := by
  match collector with
  | none | some .foreign => cases h
  | some (.place place) =>
    cases h
    exact ⟨place, rfl, rfl, rfl⟩

/-- What a node needs: for each sort of node some bindings, and values that can be taken for what they stand for. -/
def Admissible (node : Node) (literals : List Value) (scope : NodeScope) (doc : Document) : Prop :=
  match node.kind with
  | .fragment => True
  | .project =>
    scope.get .root = some () ∧ (∃ entries, (node.get .interface).toEntries = .ok entries) ∧
      ∀ field ∈ [Field.expansionBlocks, .aiUtilizeBlocks, .hardwareLiteBlocks, .externalModules,
        .externalModulesLite], ∃ items, (node.get field).items = .ok items
  | .scene | .message | .function => scope.get .project = some ()
  | .object | .sprite | .textBox => (∃ scene, scope.get .sceneId = some scene) ∧ scope.get .project = some ()
  | .picture =>
    ∃ index, scope.get .object = some index ∧ ∃ object, doc.objectCells.get? index = some object ∧
      object.objectType.isText "sprite" = true
  | .sound => ∃ index, scope.get .object = some index
  | .variable =>
    scope.get .project = some () ∧
      ∀ index, scope.get .object = some index → (doc.objectCells.get? index).isSome = true
  | .localVariable => ∃ index, scope.get .function = some index ∧ (doc.functionCells.get? index).isSome = true
  | .table => scope.get .project = some () ∧ ∃ entries, (node.get .data).toEntries = .ok entries
  | .statement => ∃ collector, scope.get .statements = some collector
  | .script => ∃ collector, scope.get .params = some collector
  | .param => (∃ collector, scope.get .params = some collector) ∧ (node.paramValues literals).length ≤ 1
  | .variableParam | .objectParam =>
    (∃ collector, scope.get .params = some collector) ∧ scope.get .project = some ()
  | .pictureParam | .soundParam =>
    (∃ collector, scope.get .params = some collector) ∧ ∃ index, scope.get .object = some index
  | .namedParam | .node => False

/-- A node is admitted if and only if it has what it needs. -/
theorem admission_eq_ok_iff {node : Node} {literals : List Value} {scope : NodeScope} {doc : Document} :
    admission node literals scope doc = .ok () ↔ Admissible node literals scope doc := by
  unfold admission Admissible
  generalize node.kind = kind
  match kind with
  | .fragment => exact ⟨fun _ => trivial, fun _ => rfl⟩
  | .namedParam =>
    cases h : scope.get .params <;> simp [Scope.require, h, bind, Except.bind, throw, throwThe, MonadExceptOf.throw]
  | .node => simp [throw, throwThe, MonadExceptOf.throw]
  | .project =>
    cases h : scope.get .root with
    | none => simp [Scope.require, h, bind, Except.bind]
    | some _ =>
      simp only [Scope.require, h, Outcome.bind_eq_ok_iff, pure, Except.pure]
      simp
  | .scene | .message | .function =>
    cases h : scope.get .project <;> simp [Scope.require, h, bind, Except.bind, pure, Except.pure]
  | .object | .sprite | .textBox =>
    cases hs : scope.get .sceneId <;> cases h : scope.get .project <;>
      simp [Scope.require, hs, h, bind, Except.bind, pure, Except.pure]
  | .picture =>
    cases ho : scope.get .object with
    | none => simp [Scope.require, ho, bind, Except.bind]
    | some index =>
      cases hc : doc.objectCells.get? index with
      | none => simp [Scope.require, ho, hc, bind, Except.bind, throw, throwThe, MonadExceptOf.throw]
      | some object =>
        cases ht : object.objectType.isText "sprite" <;>
          simp [Scope.require, ho, hc, ht, bind, Except.bind, pure, Except.pure, throw, throwThe, MonadExceptOf.throw]
  | .sound => cases h : scope.get .object <;> simp [Scope.require, h, bind, Except.bind, pure, Except.pure]
  | .variable =>
    cases h : scope.get .project with
    | none => simp [Scope.require, h, bind, Except.bind]
    | some _ =>
      cases ho : scope.get .object with
      | none => simp [Scope.require, h, ho, hasBoundObject, bind, Except.bind]
      | some index =>
        cases hc : doc.objectCells.get? index <;>
          simp [Scope.require, h, ho, hc, hasBoundObject, bind, Except.bind]
  | .localVariable =>
    cases h : scope.get .function with
    | none => simp [Scope.require, h, bind, Except.bind]
    | some index =>
      cases hc : doc.functionCells.get? index <;>
        simp [Scope.require, h, hc, bind, Except.bind, pure, Except.pure, throw, throwThe, MonadExceptOf.throw]
  | .table =>
    cases h : scope.get .project with
    | none => simp [Scope.require, h, bind, Except.bind]
    | some _ =>
      simp only [Scope.require, h, Outcome.bind_eq_ok_iff, pure, Except.pure]
      simp
  | .statement => cases h : scope.get .statements <;> simp [Scope.require, h, bind, Except.bind, pure, Except.pure]
  | .script => cases h : scope.get .params <;> simp [Scope.require, h, bind, Except.bind, pure, Except.pure]
  | .param =>
    cases h : scope.get .params with
    | none => simp [Scope.require, h, bind, Except.bind]
    | some _ =>
      by_cases hl : 1 < (node.paramValues literals).length
      · simp [Scope.require, h, hl, bind, Except.bind, throw, throwThe, MonadExceptOf.throw]
      · simp [Scope.require, h, hl, bind, Except.bind, pure, Except.pure]
        omega
  | .variableParam | .objectParam =>
    cases hc : scope.get .params <;> cases h : scope.get .project <;>
      simp [Scope.require, hc, h, bind, Except.bind, pure, Except.pure]
  | .pictureParam | .soundParam =>
    cases hc : scope.get .params <;> cases h : scope.get .object <;>
      simp [Scope.require, hc, h, bind, Except.bind, pure, Except.pure]

end Evaluating

/-- What was admitted and has contributed has one of the effects. -/
theorem Effect.of_contribute {scope : NodeScope} {n : Handle} {doc doc' : Document} {b : Branch}
    {inner : Option NodeScope} (ha : Evaluating.admission b.node (Tree.literals b.children) scope doc = .ok ())
    (hc : Evaluating.contribute b.node (Tree.literals b.children) scope n b.id doc = (.ok inner, doc')) :
    Effect scope n doc b inner doc' := by
  have hadm := Evaluating.admission_eq_ok_iff.mp ha
  unfold Evaluating.Admissible at hadm
  unfold Evaluating.contribute at hc
  match hk : b.node.kind with
  | .fragment =>
    simp only [hk] at hc
    cases hc
    exact .fragment hk
  | .project =>
    simp only [hk] at hc
    cases hc
    exact .project hk
  | .scene =>
    simp only [hk] at hc hadm
    cases hc
    exact .scene hk hadm
  | .object | .sprite | .textBox =>
    simp only [hk] at hc hadm
    obtain ⟨⟨scene, hs⟩, hp⟩ := hadm
    have hscene : scope.sceneIn = scene := by
      unfold NodeScope.sceneIn
      rw [hs]
      rfl
    cases hc
    rw [hscene]
    refine .object ?_ hp hs
    unfold Branch.kind
    rw [hk]
    rfl
  | .picture =>
    simp only [hk] at hc hadm
    obtain ⟨index, ho, object, hobj, ht⟩ := hadm
    rw [ho] at hc
    cases hc
    exact .picture hk ho hobj ht
  | .sound =>
    simp only [hk] at hc hadm
    obtain ⟨index, ho⟩ := hadm
    rw [ho] at hc
    cases hc
    exact .sound hk ho
  | .variable =>
    simp only [hk] at hc hadm
    cases hc
    exact .global hk hadm.1
  | .message =>
    simp only [hk] at hc hadm
    cases hc
    exact .message hk hadm
  | .function =>
    simp only [hk] at hc hadm
    cases hc
    exact .function hk hadm
  | .localVariable =>
    simp only [hk] at hc hadm
    obtain ⟨index, hf, -⟩ := hadm
    rw [hf] at hc
    cases hc
    exact .localVariable hk hf
  | .table =>
    simp only [hk] at hc hadm
    cases hc
    exact .table hk hadm.1
  | .statement =>
    simp only [hk] at hc
    obtain ⟨place, hs, rfl, rfl⟩ := Evaluating.of_deliver_eq_ok hc
    exact .statement hk hs
  | .script =>
    simp only [hk] at hc
    split at hc
    · obtain ⟨place, hp, rfl, rfl⟩ := Evaluating.of_deliver_eq_ok hc
      exact .script hk hp
    · cases hc
  | .param =>
    simp only [hk] at hc
    obtain ⟨place, hp, rfl, rfl⟩ := Evaluating.of_deliver_eq_ok hc
    exact .param hk hp
  | .node | .namedParam | .variableParam | .objectParam | .pictureParam | .soundParam =>
    simp only [hk] at hc
    split at hc
    · next ht =>
      obtain ⟨place, hp, rfl, rfl⟩ := Evaluating.of_deliver_eq_ok hc
      refine .named ?_ ht hp
      unfold Evaluating.targetIn at ht
      unfold Branch.kind
      rw [hk] at ht ⊢
      first | rfl | cases ht
    · cases hc

section

variable {scope inner : NodeScope} {n : Handle} {doc doc' : Document} {b : Branch} {out : Option NodeScope}

/-- What comes of a project. -/
theorem Effect.of_project (h : Effect scope n doc b out doc') (hk : b.kind = .project) :
    out = some (scope.bind .project (some ())) ∧ doc' = doc.populate b.node.projectHead n := by
  cases h with
  | project => exact ⟨rfl, rfl⟩
  | _ hk' =>
    rw [hk] at hk'
    cases hk'

/-- What comes of an object. -/
theorem Effect.of_isObject (h : Effect scope n doc b out doc') (hk : b.kind.isObject = true) :
    ∃ scene, scope.get .sceneId = some scene ∧
      out = some (scope.insideObject doc.objectCells.size doc.parts.size) ∧
      doc' = doc.addPlace.addObject n (b.node.objectEntry b.id scene doc.parts.size)
        (b.node.get .selected).truthy := by
  cases h with
  | object _ _ hs => exact ⟨_, hs, rfl, rfl⟩
  | named hk' =>
    cases hb : b.kind <;> rw [hb] at hk hk' <;> first | exact absurd hk (by decide) | exact absurd hk' (by decide)
  | _ hk' =>
    rw [show b.kind = _ from hk'] at hk
    cases hk

/-- What comes of a function. -/
theorem Effect.of_function (h : Effect scope n doc b out doc') (hk : b.kind = .function) :
    out = some (scope.insideFunction doc.functionCells.size doc.parts.size) ∧
      doc' = doc.addPlace.addFunction n (b.node.functionEntry b.id doc.parts.size) := by
  cases h with
  | function => exact ⟨rfl, rfl⟩
  | _ hk' =>
    rw [hk] at hk'
    cases hk'

/-- The project bound below a node: the document if the node is a project, and otherwise the one above. -/
theorem Effect.get_project (h : Effect scope n doc b (some inner) doc') :
    inner.get .project = if b.kind = .project then some () else scope.get .project := by
  generalize ho : some inner = out at h
  cases h with
  | project hk =>
    cases ho
    rw [if_pos hk]
    simp
  | fragment hk =>
    cases ho
    rw [if_neg (by rw [hk]; decide)]
  | object hk =>
    cases ho
    rw [if_neg (by intro he; rw [he] at hk; cases hk)]
    simp [NodeScope.insideObject]
  | scene hk | function hk | statement hk | script hk =>
    cases ho
    rw [if_neg (by rw [hk]; decide)]
    simp [NodeScope.insideFunction, NodeScope.insideStatement, NodeScope.insideScript]
  | _ => cases ho

/-- The scene bound below a node: the node itself if it is one, and otherwise the one above. -/
theorem Effect.get_sceneId (h : Effect scope n doc b (some inner) doc') :
    inner.get .sceneId = if b.kind = .scene then some b.id else scope.get .sceneId := by
  generalize ho : some inner = out at h
  cases h with
  | scene hk =>
    cases ho
    rw [if_pos hk]
    simp
  | fragment hk =>
    cases ho
    rw [if_neg (by rw [hk]; decide)]
  | object hk =>
    cases ho
    rw [if_neg (by intro he; rw [he] at hk; cases hk)]
    simp [NodeScope.insideObject]
  | project hk | function hk | statement hk | script hk =>
    cases ho
    rw [if_neg (by rw [hk]; decide)]
    simp [NodeScope.insideFunction, NodeScope.insideStatement, NodeScope.insideScript]
  | _ => cases ho

/-- The object bound below a node: the node itself if it is one, and otherwise the one above. -/
theorem Effect.get_object (h : Effect scope n doc b (some inner) doc') :
    inner.get .object = if b.kind.isObject then some doc.objectCells.size else scope.get .object := by
  generalize ho : some inner = out at h
  cases h with
  | object hk =>
    cases ho
    rw [if_pos hk]
    simp [NodeScope.insideObject]
  | fragment hk =>
    cases ho
    rw [if_neg (by rw [hk]; decide)]
  | project hk | scene hk | function hk | statement hk | script hk =>
    cases ho
    rw [if_neg (by rw [hk]; decide)]
    simp [NodeScope.insideFunction, NodeScope.insideStatement, NodeScope.insideScript]
  | _ => cases ho

/-- The function bound below a node: the node itself if it is one, none if it is an object, and otherwise the one
above. -/
theorem Effect.get_function (h : Effect scope n doc b (some inner) doc') :
    inner.get .function =
      if b.kind.isObject then none
      else if b.kind = .function then some doc.functionCells.size
      else scope.get .function := by
  generalize ho : some inner = out at h
  cases h with
  | object hk =>
    cases ho
    rw [if_pos hk]
    simp [NodeScope.insideObject]
  | function hk =>
    cases ho
    rw [if_neg (by rw [hk]; decide), if_pos hk]
    simp [NodeScope.insideFunction]
  | fragment hk =>
    cases ho
    rw [if_neg (by rw [hk]; decide), if_neg (by rw [hk]; decide)]
  | project hk | scene hk | statement hk | script hk =>
    cases ho
    rw [if_neg (by rw [hk]; decide), if_neg (by rw [hk]; decide)]
    simp [NodeScope.insideStatement, NodeScope.insideScript]
  | _ => cases ho

/-- The place of statements below a node: a new one for an object, a function and a script, and otherwise the one
above. -/
theorem Effect.get_statements (h : Effect scope n doc b (some inner) doc') :
    inner.get .statements =
      if b.kind.isObject = true ∨ b.kind = .function then some (.place doc.parts.size)
      else if b.kind = .script then some (.place (doc.parts.size + 1))
      else scope.get .statements := by
  generalize ho : some inner = out at h
  cases h with
  | object hk =>
    cases ho
    rw [if_pos (.inl hk)]
    simp [NodeScope.insideObject]
  | function hk =>
    cases ho
    rw [if_pos (.inr hk)]
    simp [NodeScope.insideFunction]
  | script hk =>
    cases ho
    rw [if_neg (by rw [hk]; decide), if_pos hk]
    simp [NodeScope.insideScript]
  | fragment hk =>
    cases ho
    rw [if_neg (by rw [hk]; decide), if_neg (by rw [hk]; decide)]
  | project hk | scene hk | statement hk =>
    cases ho
    rw [if_neg (by rw [hk]; decide), if_neg (by rw [hk]; decide)]
    simp [NodeScope.insideStatement]
  | _ => cases ho

/-- The place of parameters below a node: none for an object and a function, a new one for a statement and a script, and
otherwise the one above. -/
theorem Effect.get_params (h : Effect scope n doc b (some inner) doc') :
    inner.get .params =
      if b.kind.isObject = true ∨ b.kind = .function then none
      else if b.kind = .statement ∨ b.kind = .script then some (.place doc.parts.size)
      else scope.get .params := by
  generalize ho : some inner = out at h
  cases h with
  | object hk =>
    cases ho
    rw [if_pos (.inl hk)]
    simp [NodeScope.insideObject]
  | function hk =>
    cases ho
    rw [if_pos (.inr hk)]
    simp [NodeScope.insideFunction]
  | statement hk =>
    cases ho
    rw [if_neg (by rw [hk]; decide), if_pos (.inl hk)]
    simp [NodeScope.insideStatement]
  | script hk =>
    cases ho
    rw [if_neg (by rw [hk]; decide), if_pos (.inr hk)]
    simp [NodeScope.insideScript]
  | fragment hk =>
    cases ho
    rw [if_neg (by rw [hk]; decide), if_neg (by rw [hk]; decide)]
  | project hk | scene hk =>
    cases ho
    rw [if_neg (by rw [hk]; decide), if_neg (by rw [hk]; decide)]
    simp
  | _ => cases ho

/-- A statement stands where there is a place for statements. -/
theorem Effect.statements_of_statement (h : Effect scope n doc b out doc') (hk : b.kind = .statement) :
    ∃ place, scope.get .statements = some (.place place) := by
  cases h with
  | statement _ hs => exact ⟨_, hs⟩
  | _ hk' =>
    rw [hk] at hk'
    cases hk'

/-- A script stands where there is a place for parameters. -/
theorem Effect.params_of_script (h : Effect scope n doc b out doc') (hk : b.kind = .script) :
    ∃ place, scope.get .params = some (.place place) := by
  cases h with
  | script _ hp => exact ⟨_, hp⟩
  | _ hk' =>
    rw [hk] at hk'
    cases hk'

end

end SceneTree
