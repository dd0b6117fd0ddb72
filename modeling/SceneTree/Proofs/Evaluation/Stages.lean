import SceneTree.Proofs.Attempt
import SceneTree.Proofs.Evaluation.Contribution

/-!
# The stages of a contribution

`emit_eq` says that a node's contribution consists of three stages: admission, which changes nothing; the request of an
id, which changes the tables of ids and nothing else; and the entry, which changes the document and nothing else. All
that is said of evaluations further on is said of the stages, and no proof has to open a contribution again.
-/

namespace SceneTree.Evaluating

/-- The three stages of a contribution in a row. -/
def staged (node : Node) (literals : List Value) (scope : NodeScope) (handle : Handle) :
    Evaluating (Option NodeScope) := do
  let e ← Attempt.state
  Attempt.ofExcept (admission node literals scope e.document)
  let id ← request node handle
  onDocument (contribute node literals scope handle id)

/-- What the three stages come to, from the outcomes of the first two. -/
theorem staged_apply (node : Node) (literals : List Value) (scope : NodeScope) (handle : Handle) (e : Evaluation) :
    staged node literals scope handle e =
      match admission node literals scope e.document with
      | .error fault => (.error fault, e)
      | .ok () =>
        match request node handle e with
        | (.error fault, e') => (.error fault, e')
        | (.ok id, e') =>
          ((contribute node literals scope handle id e'.document).1,
            { e' with document := (contribute node literals scope handle id e'.document).2 }) := by
  simp only [staged, Attempt.bind_apply, Attempt.state_apply, Attempt.ofExcept_apply, onDocument]
  cases admission node literals scope e.document with
  | error _ => rfl
  | ok _ =>
    simp only
    rcases request node handle e with ⟨_ | _, _⟩ <;> rfl

/-- A missing binding is all that a requirement can fail for. -/
theorem require_apply (scope : NodeScope) (node : Node) (place : Place) (requirement : String) (e : Evaluation) :
    require scope node place requirement e = (scope.require node.called place requirement, e) := rfl

/-- A new place comes after all others. -/
theorem newPlace_apply (e : Evaluation) :
    newPlace e = (.ok e.document.parts.size, { e with document := e.document.addPlace }) := rfl

/-- A change of the document leaves the ids alone. -/
theorem updateDocument_apply (f : Document → Document) (e : Evaluation) :
    updateDocument f e = (.ok (), { e with document := f e.document }) := rfl

/-- Taking items changes nothing. -/
theorem itemsOf_apply (v : Value) (e : Evaluation) : itemsOf v e = (v.items, e) := rfl

/-- Reading an object changes nothing. -/
theorem objectAt_apply (index : Nat) (e : Evaluation) :
    objectAt index e = (((e.document.objectCells.get? index).map Except.ok).getD (.error .noField), e) := by
  simp only [objectAt, Attempt.bind_apply, Attempt.state_apply]
  cases e.document.objectCells.get? index <;> rfl

/-- Reading a function changes nothing. -/
theorem functionAt_apply (index : Nat) (e : Evaluation) :
    functionAt index e = (((e.document.functionCells.get? index).map Except.ok).getD (.error .noField), e) := by
  simp only [functionAt, Attempt.bind_apply, Attempt.state_apply]
  cases e.document.functionCells.get? index <;> rfl

/-- Collecting an item is a delivery to the place. -/
theorem collect_apply (collector : Collector) (handle : Handle) (item : Item) (e : Evaluation) :
    collect collector handle item e =
      ((deliver (some collector) handle item none e.document).1.map fun _ => (),
        { e with document := (deliver (some collector) handle item none e.document).2 }) := by
  cases collector <;> rfl

section

variable {node : Node} (literals : List Value) (scope : NodeScope) (handle : Handle) (e : Evaluation)

/-- The stages of a project. -/
theorem emit_project (hk : node.kind = .project) :
    emit node literals scope handle e = staged node literals scope handle e := by
  simp only [staged_apply, emit, admission, request, contribute, Node.requestedId?, hk, emitProject, require_apply,
    itemsOf_apply, updateDocument_apply, Scope.require, bind, Except.bind, pure, Except.pure,
    liftM, monadLift, MonadLift.monadLift, Attempt.ofExcept_apply]
  cases scope.get .root with
  | none => rfl
  | some _ =>
    cases h₁ : (node.get .interface).toEntries with
    | error _ => rfl
    | ok _ =>
      cases h₂ : (node.get .expansionBlocks).items with
      | error _ => rfl
      | ok _ =>
        cases h₃ : (node.get .aiUtilizeBlocks).items with
        | error _ => rfl
        | ok _ =>
          cases h₄ : (node.get .hardwareLiteBlocks).items with
          | error _ => rfl
          | ok _ =>
            cases h₅ : (node.get .externalModules).items with
            | error _ => rfl
            | ok _ =>
              cases h₆ : (node.get .externalModulesLite).items with
              | error _ => rfl
              | ok _ =>
                simp only [Node.projectHead, Value.entryList, Value.itemList, h₁, h₂, h₃, h₄, h₅, h₆]
                rfl

/-- The stages of a scene. -/
theorem emit_scene (hk : node.kind = .scene) :
    emit node literals scope handle e = staged node literals scope handle e := by
  simp only [staged_apply, emit, admission, request, contribute, Node.requestedId?, hk, emitScene,
    require_apply, updateDocument_apply, Scope.require, bind, Except.bind, pure, Except.pure]
  cases scope.get .project with
  | none => rfl
  | some _ =>
    simp only
    rcases instanceId handle (node.get .id) e with ⟨_ | id, e'⟩ <;> rfl

/-- The stages of an object. -/
theorem emit_object (hk : node.kind = .object ∨ node.kind = .sprite ∨ node.kind = .textBox) :
    emit node literals scope handle e = staged node literals scope handle e := by
  rcases hk with hk | hk | hk
  all_goals
    simp only [staged_apply, emit, admission, request, contribute, Node.requestedId?, hk, emitObject,
      require_apply, newPlace_apply, updateDocument_apply, Attempt.state_apply, Scope.require, bind, Except.bind,
      pure, Except.pure]
    cases hs : scope.get .sceneId with
    | none => rfl
    | some _ =>
      cases scope.get .project with
      | none => rfl
      | some _ =>
        simp only
        rcases instanceId handle (node.get .id) e with ⟨_ | id, e'⟩
        · rfl
        · simp only [NodeScope.sceneIn, hs]
          rfl

/-- The stages of a picture. -/
theorem emit_picture (hk : node.kind = .picture) :
    emit node literals scope handle e = staged node literals scope handle e := by
  simp only [staged_apply, emit, admission, request, contribute, Node.requestedId?, hk, emitPicture,
    require_apply, objectAt_apply, Scope.require, bind, Except.bind, pure, Except.pure]
  cases scope.get .object with
  | none => rfl
  | some index =>
    simp only
    cases e.document.objectCells.get? index with
    | none => rfl
    | some object =>
      cases hs : object.objectType.isText "sprite" with
      | false =>
        simp [hs]
        rfl
      | true =>
        simp [hs]
        simp only [updateDocument_apply]
        rcases instanceId handle (node.get .id) e with ⟨_ | id, e'⟩ <;> rfl

/-- The stages of a sound. -/
theorem emit_sound (hk : node.kind = .sound) :
    emit node literals scope handle e = staged node literals scope handle e := by
  simp only [staged_apply, emit, admission, request, contribute, Node.requestedId?, hk, emitSound, require_apply,
    updateDocument_apply, Scope.require, bind, Except.bind, pure, Except.pure]
  cases scope.get .object with
  | none => rfl
  | some _ =>
    simp only
    rcases instanceId handle (node.get .id) e with ⟨_ | id, e'⟩ <;> rfl

/-- What an instance id comes to: the authored one, the one that is kept, or a fresh one. -/
theorem instanceId_apply (authored : Value) :
    instanceId handle authored e =
      if authored.truthy then
        if !authored.isKey then (.error .wrongType, e)
        else if (e.ownerOf? authored).any (· != handle) then (.error (.idTaken authored), e)
        else
          (.ok authored,
            { e.assign handle authored with supply := { e.supply with pool := e.supply.pool.reserve authored } })
      else
        match e.idOf? handle with
        | some id => (.ok id, e)
        | none =>
          match freshId e with
          | (.ok id, e') => (.ok (.str id), e'.assign handle (.str id))
          | (.error fault, e') => (.error fault, e') := by
  simp only [instanceId, Attempt.bind_apply, Attempt.state_apply]
  by_cases ht : authored.truthy
  · by_cases hk : authored.isKey
    · by_cases ho : (e.ownerOf? authored).any (· != handle)
      · simp only [ht, hk, ho, if_true, Bool.not_true, Bool.false_eq_true, if_false, Attempt.fail_apply]
      · simp only [ht, hk, ho, if_true, Bool.not_true, Bool.false_eq_true, if_false]
        rfl
    · simp only [ht, hk, if_true, Bool.not_false, Attempt.fail_apply]
  · simp only [ht, Bool.false_eq_true, if_false]
    cases e.idOf? handle with
    | some id => rfl
    | none =>
      simp only [Attempt.bind_apply]
      rcases freshId e with ⟨_ | id, e'⟩ <;> rfl

/-- Drawing an id leaves the document alone. -/
theorem document_freshId : (freshId e).2.document = e.document := rfl

/-- A computation of instance ids leaves the document alone. -/
theorem document_instanceId (authored : Value) :
    (instanceId handle authored e).2.document = e.document := by
  have hf := document_freshId e
  rw [instanceId_apply]
  split
  · split
    · rfl
    · split <;> rfl
  · split
    · rfl
    · rcases hfe : freshId e with ⟨_ | id, e'⟩
      · rw [hfe] at hf
        exact hf
      · rw [hfe] at hf
        exact hf

/-- The stages of a variable. The object that it belongs to is the same before and after its id is known. -/
theorem emit_variable (hk : node.kind = .variable) :
    emit node literals scope handle e = staged node literals scope handle e := by
  simp only [staged_apply, emit, admission, request, contribute, Node.requestedId?, hk, emitVariable,
    require_apply, hasBoundObject, Document.ownerIn, updateDocument_apply, Scope.require, bind, Except.bind, pure]
  have hd := document_instanceId handle e (node.get .id)
  cases scope.get .project with
  | none => rfl
  | some _ =>
    cases scope.get .object with
    | none =>
      simp only
      rcases instanceId handle (node.get .id) e with ⟨_ | id, e'⟩ <;> rfl
    | some index =>
      simp only [objectAt_apply]
      cases ho : e.document.objectCells.get? index with
      | none => rfl
      | some object =>
        simp only [Option.map_some, Option.getD_some, Option.isSome_some, if_true]
        rcases hi : instanceId handle (node.get .id) e with ⟨_ | id, e'⟩
        · rfl
        · have ho' : e'.document.objectCells.get? index = some object := by
            rw [hi] at hd
            rw [hd, ho]
          simp only [ho']
          rfl

/-- The stages of a message. -/
theorem emit_message (hk : node.kind = .message) :
    emit node literals scope handle e = staged node literals scope handle e := by
  simp only [staged_apply, emit, admission, request, contribute, Node.requestedId?, hk, emitMessage, require_apply,
    updateDocument_apply, Scope.require, bind, Except.bind, pure, Except.pure]
  cases scope.get .project with
  | none => rfl
  | some _ =>
    simp only
    rcases instanceId handle (node.get .id) e with ⟨_ | id, e'⟩ <;> rfl

/-- The stages of a function. -/
theorem emit_function (hk : node.kind = .function) :
    emit node literals scope handle e = staged node literals scope handle e := by
  simp only [staged_apply, emit, admission, request, contribute, Node.requestedId?, hk, emitFunction,
    require_apply, newPlace_apply, Attempt.state_apply, updateDocument_apply, Scope.require, bind, Except.bind, pure,
    Except.pure]
  cases scope.get .project with
  | none => rfl
  | some _ =>
    simp only
    rcases instanceId handle (node.get .id) e with ⟨_ | id, e'⟩ <;> rfl

/-- The stages of a local variable. -/
theorem emit_localVariable (hk : node.kind = .localVariable) :
    emit node literals scope handle e = staged node literals scope handle e := by
  simp only [staged_apply, emit, admission, request, contribute, Node.requestedId?, hk, emitLocalVariable,
    require_apply, functionAt_apply, updateDocument_apply, Scope.require, bind, Except.bind, pure, Except.pure]
  have hd := document_instanceId handle e .null
  cases hf : scope.get .function with
  | none => rfl
  | some index =>
    simp only
    cases ho : e.document.functionCells.get? index with
    | none => rfl
    | some function =>
      simp only [Option.map_some, Option.getD_some, Option.isNone_some]
      rcases hi : instanceId handle .null e with ⟨_ | id, e'⟩
      · rfl
      · have ho' : e'.document.functionCells.get? index = some function := by
          rw [hi] at hd
          rw [hd, ho]
        simp only [Document.functionIn, hf, ho']
        rfl

/-- The stages of a table. -/
theorem emit_table (hk : node.kind = .table) :
    emit node literals scope handle e = staged node literals scope handle e := by
  simp only [staged_apply, emit, admission, request, contribute, Node.requestedId?, hk, emitTable, require_apply,
    updateDocument_apply, Scope.require, bind, Except.bind, pure, Except.pure, liftM, monadLift, MonadLift.monadLift,
    Attempt.ofExcept_apply]
  cases scope.get .project with
  | none => rfl
  | some _ =>
    cases hd : (node.get .data).toEntries with
    | error _ => rfl
    | ok data =>
      simp only [Value.entryList, hd]
      rfl

/-- The stages of a statement. -/
theorem emit_statement (hk : node.kind = .statement) :
    emit node literals scope handle e = staged node literals scope handle e := by
  simp only [staged_apply, emit, admission, request, contribute, Node.requestedId?, hk, emitStatement, require_apply,
    newPlace_apply, collect_apply, Scope.require, bind, Except.bind, pure, Except.pure]
  cases scope.get .statements with
  | none => rfl
  | some collector => cases collector <;> rfl

/-- The stages of a script. -/
theorem emit_script (hk : node.kind = .script) :
    emit node literals scope handle e = staged node literals scope handle e := by
  simp only [staged_apply, emit, admission, request, contribute, Node.requestedId?, hk, emitScript, require_apply,
    itemsOf_apply, newPlace_apply, collect_apply, Scope.require, bind, Except.bind, pure, Except.pure]
  cases scope.get .params with
  | none => rfl
  | some collector =>
    simp only
    rcases instanceId handle .null e with ⟨_ | id, e'⟩
    · rfl
    · cases hx : (node.get .extensions).items with
      | error _ => rfl
      | ok extensions =>
        simp only [Node.scriptHead, Value.itemList, hx]
        cases collector <;> simp [Document.addPlace, deliver] <;> rfl

/-- The stages of a parameter. -/
theorem emit_param (hk : node.kind = .param) :
    emit node literals scope handle e = staged node literals scope handle e := by
  simp only [staged_apply, emit, admission, request, contribute, Node.requestedId?, hk, emitParam, require_apply,
    Scope.require, bind, Except.bind, pure, Except.pure]
  cases scope.get .params with
  | none => rfl
  | some collector =>
    simp only [Node.paramValue]
    have hv : (if (node.get .value).isNull = true then literals else node.get .value :: literals) =
        node.paramValues literals := rfl
    rw [hv]
    rcases node.paramValues literals with _ | ⟨v, _ | ⟨w, rest⟩⟩
    · simp only [collect_apply]
      cases collector <;> rfl
    · simp only [collect_apply]
      cases collector <;> rfl
    · rfl

/-- The stages of a named parameter. -/
theorem emit_namedParam (hk : node.kind.isNamedParam = true) :
    emit node literals scope handle e = staged node literals scope handle e := by
  cases hk' : node.kind <;> rw [hk'] at hk <;> first | contradiction | skip
  all_goals
    simp only [staged_apply, emit, admission, request, contribute, Node.requestedId?, hk', emitNamedParam,
      require_apply, namedTarget, targetIn, Scope.require, bind, Except.bind, pure, Except.pure]
    cases scope.get .params with
    | none => rfl
    | some collector =>
      first
      | rfl
      | cases scope.get .project with
        | none => rfl
        | some _ => cases collector <;> rfl
      | cases scope.get .object with
        | none => rfl
        | some _ => cases collector <;> rfl

end

/-- Nothing happens besides the three stages. -/
theorem emit_eq (node : Node) (literals : List Value) (scope : NodeScope) (handle : Handle) :
    emit node literals scope handle = staged node literals scope handle := by
  funext e
  match hk : node.kind with
  | .node =>
    simp only [staged_apply, emit, admission, hk]
    rfl
  | .fragment =>
    simp only [staged_apply, emit, admission, request, contribute, Node.requestedId?, hk]
    rfl
  | .project => exact emit_project literals scope handle e hk
  | .scene => exact emit_scene literals scope handle e hk
  | .object => exact emit_object literals scope handle e (.inl hk)
  | .sprite => exact emit_object literals scope handle e (.inr (.inl hk))
  | .textBox => exact emit_object literals scope handle e (.inr (.inr hk))
  | .picture => exact emit_picture literals scope handle e hk
  | .sound => exact emit_sound literals scope handle e hk
  | .variable => exact emit_variable literals scope handle e hk
  | .message => exact emit_message literals scope handle e hk
  | .function => exact emit_function literals scope handle e hk
  | .localVariable => exact emit_localVariable literals scope handle e hk
  | .table => exact emit_table literals scope handle e hk
  | .statement => exact emit_statement literals scope handle e hk
  | .script => exact emit_script literals scope handle e hk
  | .param => exact emit_param literals scope handle e hk
  | .namedParam | .variableParam | .objectParam | .pictureParam | .soundParam =>
    exact emit_namedParam literals scope handle e (by rw [hk]; rfl)

end SceneTree.Evaluating
