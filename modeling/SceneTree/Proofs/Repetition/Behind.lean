import SceneTree.Proofs.Evaluation.Runs

/-!
# Documents that stand behind others

The cells of a document are known by number. A document can stand behind another one: its cells then come after those of
the other one, and whatever names a cell names it by its new number. Nodes contribute in the same way to a document that
stands behind another as to the document by itself, so that nothing which is in the other one makes a difference, and
nothing in it is changed.
-/

namespace SceneTree

/-- How many cells of each sort come first. -/
structure Base where
  objects : Nat
  functions : Nat
  parts : Nat
  references : Nat

/-- The roster with another entry in the place of each. -/
def Roster.map {τ α β : Type} (f : α → β) (r : Roster τ α) : Roster τ β :=
  ⟨r.tokens, r.values.map f, by rw [List.length_map, r.aligned]⟩

/-- A scope with another binding in the place of each. -/
def Scope.map {τ : Place → Type} (f : (p : Place) → τ p → τ p) (scope : Scope τ) : Scope τ :=
  ⟨fun p => (scope.get p).map (f p)⟩

/-- Things that come after others, each of them changed. -/
def Cells.behind {α : Type} (old : Cells α) (f : α → α) (cells : Cells α) : Cells α :=
  ⟨old.contents ++ cells.contents.map f⟩

namespace Base

/-- Where a name is looked for, by new numbers. -/
def target (b : Base) : Target → Target
  | .globals => .globals
  | .objects => .objects
  | .pictures object => .pictures (b.objects + object)
  | .sounds object => .sounds (b.objects + object)

/-- An item by new numbers. -/
def item (b : Base) : Item → Item
  | .value v => .value v
  | .block parts => .block (b.parts + parts)
  | .script head params statements => .script head (b.parts + params) (b.parts + statements)
  | .reference index => .reference (b.references + index)

/-- A collecting place by its new number. -/
def collector (b : Base) : Collector → Collector
  | .place index => .place (b.parts + index)
  | .foreign => .foreign

/-- What is bound at a place, by new numbers. -/
def binding (b : Base) : (p : Place) → Binding p → Binding p
  | .root, x | .project, x | .sceneId, x => x
  | .object, index => Nat.add b.objects index
  | .function, index => Nat.add b.functions index
  | .statements, c | .params, c => b.collector c

/-- A scope by new numbers. -/
def scope (b : Base) (scope : NodeScope) : NodeScope := scope.map b.binding

/-- An object with the new number of its place. -/
def object (b : Base) (object : ObjectEntry) : ObjectEntry := { object with blocks := b.parts + object.blocks }

/-- A function with the new number of its place. -/
def function (b : Base) (function : FunctionEntry) : FunctionEntry :=
  { function with content := b.parts + function.content }

end Base

namespace Document

/-- How many cells a document has. -/
def base (doc : Document) : Base :=
  ⟨doc.objectCells.size, doc.functionCells.size, doc.parts.size, doc.references.size⟩

/-- A document whose cells come after those of an older one. -/
def behind (old doc : Document) : Document :=
  { doc with
    objects := doc.objects.map (old.base.objects + ·)
    functions := doc.functions.map (old.base.functions + ·)
    objectCells := old.objectCells.behind old.base.object doc.objectCells
    functionCells := old.functionCells.behind old.base.function doc.functionCells
    parts := old.parts.behind (Roster.map old.base.item) doc.parts
    references := old.references.behind (fun (target, r) => (old.base.target target, r)) doc.references }

/-- The document that nothing fills, but of which some projects are said to have filled it. -/
def blank (populatedBy : List Handle) : Document := { Document.empty with populatedBy := populatedBy }

end Document

/-- An evaluation whose document stands behind an older one. -/
def Evaluation.behind (old : Document) (e : Evaluation) : Evaluation := { e with document := old.behind e.document }

/-- A binding is changed before or after it is made. -/
theorem Scope.map_bind {τ : Place → Type} (f : (p : Place) → τ p → τ p) (scope : Scope τ) (place : Place)
    (binding : Option (τ place)) :
    (scope.bind place binding).map f = (scope.map f).bind place (binding.map (f place)) := by
  unfold Scope.map Scope.bind
  congr 1
  funext p
  by_cases hp : p = place
  · subst hp
    simp
  · simp [hp]

namespace Roster

variable {α β : Type} {f : α → β}

theorem values_map (f : α → β) (r : Roster Handle α) : (r.map f).values = r.values.map f := rfl

@[simp] theorem entries_map (f : α → β) (r : Roster Handle α) :
    (r.map f).entries = r.entries.map fun p => (p.1, f p.2) := List.zip_map_right

theorem insert_map (f : α → β) (r : Roster Handle α) (n : Handle) (a : α) :
    (r.map f).insert n (f a) = (r.insert n a).map f := by
  ext1
  simp only [entries_insert, entries_map, List.map_append, List.eraseP_map]
  rfl

end Roster

namespace Cells

variable {α : Type} (old : Cells α) (f : α → α) (cells : Cells α)

@[simp] theorem size_behind : (old.behind f cells).size = old.size + cells.size := by simp [size, behind]

theorem behind_empty : old.behind f .empty = old := by
  simp [behind, empty]

@[simp] theorem get?_behind (i : Nat) : (old.behind f cells).get? (old.size + i) = (cells.get? i).map f := by
  unfold get? behind size
  rw [Array.getElem?_append_right (Nat.le_add_right _ _), Nat.add_sub_cancel_left, Array.getElem?_map]

theorem add_behind (a : α) : (old.behind f cells).add (f a) = old.behind f (cells.add a) := by
  unfold add behind
  rw [Array.map_push, Array.append_push]

theorem modify_behind (i : Nat) {g g' : α → α} (h : ∀ a, g' (f a) = f (g a)) :
    (old.behind f cells).modify (old.size + i) g' = old.behind f (cells.modify i g) := by
  unfold modify behind size
  congr 1
  refine Array.ext (by simp) fun j hj hj' => ?_
  simp only [Array.getElem_modify, Array.getElem_append, Array.getElem_map]
  by_cases hold : j < old.contents.size
  · simp only [hold, dif_pos]
    rw [if_neg (by omega)]
  · simp only [hold, dif_neg, not_false_eq_true]
    by_cases hij : i = j - old.contents.size
    · rw [if_pos (by omega), if_pos hij, h]
    · rw [if_neg (by omega), if_neg hij]

end Cells

namespace Base

variable (b : Base)

theorem scope_bind (scope : NodeScope) (place : Place) (binding : Option (Binding place)) :
    b.scope (scope.bind place binding) = (b.scope scope).bind place (binding.map (b.binding place)) :=
  Scope.map_bind _ _ _ _

theorem scope_root : b.scope .root = .root := by
  unfold NodeScope.root
  rw [scope_bind]
  rfl

theorem get_scope (scope : NodeScope) (place : Place) :
    (b.scope scope).get place = (scope.get place).map (b.binding place) := rfl

theorem scope_insideObject (scope : NodeScope) (index blocks : Nat) :
    b.scope (scope.insideObject index blocks) =
      (b.scope scope).insideObject (b.objects + index) (b.parts + blocks) := by
  unfold NodeScope.insideObject
  simp only [scope_bind]
  rfl

theorem scope_insideFunction (scope : NodeScope) (index content : Nat) :
    b.scope (scope.insideFunction index content) =
      (b.scope scope).insideFunction (b.functions + index) (b.parts + content) := by
  unfold NodeScope.insideFunction
  simp only [scope_bind]
  rfl

theorem scope_insideStatement (scope : NodeScope) (block : Nat) :
    b.scope (scope.insideStatement block) = (b.scope scope).insideStatement (b.parts + block) := by
  unfold NodeScope.insideStatement
  rw [scope_bind]
  rfl

theorem scope_insideScript (scope : NodeScope) (params statements : Nat) :
    b.scope (scope.insideScript params statements) =
      (b.scope scope).insideScript (b.parts + params) (b.parts + statements) := by
  unfold NodeScope.insideScript
  simp only [scope_bind]
  rfl

end Base

namespace Document

variable (old doc : Document) (n : Handle)

theorem behind_addPlace : (old.behind doc).addPlace = old.behind doc.addPlace := by
  have h := old.parts.add_behind (Roster.map old.base.item) doc.parts .empty
  unfold addPlace behind
  simp only
  rw [← h]
  rfl

theorem behind_putItem (place : Nat) (item : Item) :
    (old.behind doc).putItem (old.base.parts + place) n (old.base.item item) =
      old.behind (doc.putItem place n item) := by
  unfold putItem behind
  simp only
  congr 1
  exact old.parts.modify_behind _ doc.parts place fun r => Roster.insert_map old.base.item r n item

theorem behind_addReference (target : Target) (r : Reference) :
    (old.behind doc).addReference (old.base.target target) r = old.behind (doc.addReference target r) := by
  unfold addReference behind
  simp only
  congr 1
  exact old.references.add_behind (fun (target, r) => (old.base.target target, r)) doc.references (target, r)

theorem behind_addObject (entry : ObjectEntry) (selected : Bool) :
    (old.behind doc).addObject n (old.base.object entry) selected = old.behind (doc.addObject n entry selected) := by
  have hcells := old.objectCells.add_behind old.base.object doc.objectCells entry
  have hroster := Roster.insert_map (old.base.objects + ·) doc.objects n doc.objectCells.size
  unfold addObject behind
  simp only [Cells.size_behind]
  rw [hcells, ← hroster]
  rfl

theorem behind_changeObject (index : Nat) {g g' : ObjectEntry → ObjectEntry}
    (h : ∀ object, g' (old.base.object object) = old.base.object (g object)) :
    (old.behind doc).changeObject (old.base.objects + index) g' = old.behind (doc.changeObject index g) := by
  unfold changeObject behind
  simp only
  congr 1
  exact old.objectCells.modify_behind _ doc.objectCells index h

theorem behind_addFunction (entry : FunctionEntry) :
    (old.behind doc).addFunction n (old.base.function entry) = old.behind (doc.addFunction n entry) := by
  have hcells := old.functionCells.add_behind old.base.function doc.functionCells entry
  have hroster := Roster.insert_map (old.base.functions + ·) doc.functions n doc.functionCells.size
  unfold addFunction behind
  simp only [Cells.size_behind]
  rw [hcells, ← hroster]
  rfl

theorem behind_changeFunction (index : Nat) {g g' : FunctionEntry → FunctionEntry}
    (h : ∀ function, g' (old.base.function function) = old.base.function (g function)) :
    (old.behind doc).changeFunction (old.base.functions + index) g' = old.behind (doc.changeFunction index g) := by
  unfold changeFunction behind
  simp only
  congr 1
  exact old.functionCells.modify_behind _ doc.functionCells index h

theorem behind_get?_objectCells (index : Nat) :
    (old.behind doc).objectCells.get? (old.base.objects + index) = (doc.objectCells.get? index).map old.base.object :=
  Cells.get?_behind _ _ _ _

theorem behind_get?_functionCells (index : Nat) :
    (old.behind doc).functionCells.get? (old.base.functions + index) =
      (doc.functionCells.get? index).map old.base.function :=
  Cells.get?_behind _ _ _ _

theorem behind_ownerIn (scope : NodeScope) : (old.behind doc).ownerIn (old.base.scope scope) = doc.ownerIn scope := by
  unfold ownerIn
  rw [Base.get_scope]
  cases scope.get .object with
  | none => rfl
  | some index =>
    change (((old.behind doc).objectCells.get? (old.base.objects + index)).map (·.id)).getD .null = _
    rw [behind_get?_objectCells, Option.map_map]
    rfl

theorem behind_functionIn (scope : NodeScope) :
    (old.behind doc).functionIn (old.base.scope scope) = doc.functionIn scope := by
  unfold functionIn
  rw [Base.get_scope]
  cases scope.get .function with
  | none => rfl
  | some index =>
    change (((old.behind doc).functionCells.get? (old.base.functions + index)).map (·.id)).getD .null = _
    rw [behind_get?_functionCells, Option.map_map]
    rfl

/-- A project that begins in a document begins in a blank one that stands behind it. -/
theorem populate_eq_behind (head : ProjectHead) :
    doc.populate head n = doc.behind ((Document.blank doc.populatedBy).populate head n) := by
  unfold populate behind
  simp only [Document.blank, Document.empty, Cells.behind_empty]
  rfl

end Document

namespace Evaluating

variable (old doc : Document) (scope : NodeScope)

theorem behind_targetIn (node : Node) :
    targetIn node (old.base.scope scope) = (targetIn node scope).map old.base.target := by
  unfold targetIn
  cases node.kind with
  | pictureParam | soundParam =>
    simp only [Base.get_scope]
    cases scope.get .object <;> rfl
  | _ => rfl

theorem behind_deliver (collector : Option Collector) (n : Handle) (item : Item) (inner : Option NodeScope) :
    deliver (collector.map old.base.collector) n (old.base.item item) (inner.map old.base.scope) (old.behind doc) =
      ((deliver collector n item inner doc).1.map (Option.map old.base.scope),
        old.behind (deliver collector n item inner doc).2) := by
  match collector with
  | none | some .foreign => rfl
  | some (.place index) => exact Prod.ext rfl (Document.behind_putItem old doc n index item)

/-- A node is admitted to a document that stands behind another one as it is to the document by itself. -/
theorem behind_admission (node : Node) (literals : List Value) :
    admission node literals (old.base.scope scope) (old.behind doc) = admission node literals scope doc := by
  have hobject : ∀ index : Nat, (old.behind doc).objectCells.get? (old.base.binding .object index) =
      (doc.objectCells.get? index).map old.base.object := Document.behind_get?_objectCells old doc
  have hfunction : ∀ index : Nat, (old.behind doc).functionCells.get? (old.base.binding .function index) =
      (doc.functionCells.get? index).map old.base.function := Document.behind_get?_functionCells old doc
  unfold admission Scope.require hasBoundObject
  simp only [Base.get_scope]
  match node.kind with
  | .picture =>
    simp only
    cases scope.get .object with
    | none => rfl
    | some index =>
      simp only [Option.map_some, bind, Except.bind, hobject]
      cases doc.objectCells.get? index <;> rfl
  | .localVariable =>
    simp only
    cases scope.get .function with
    | none => rfl
    | some index =>
      simp only [Option.map_some, bind, Except.bind, hfunction]
      cases doc.functionCells.get? index <;> rfl
  | .variable =>
    simp only
    cases scope.get .project with
    | none => rfl
    | some _ =>
      cases scope.get .object with
      | none => rfl
      | some index =>
        simp only [Option.map_some, bind, Except.bind, hobject]
        cases doc.objectCells.get? index <;> rfl
  | .scene | .message | .function | .table =>
    simp only
    cases scope.get .project <;> rfl
  | .object | .sprite | .textBox =>
    simp only
    cases scope.get .sceneId <;> cases scope.get .project <;> rfl
  | .project =>
    simp only
    cases scope.get .root <;> rfl
  | .sound =>
    simp only
    cases scope.get .object <;> rfl
  | .statement =>
    simp only
    cases scope.get .statements <;> rfl
  | .script | .param | .namedParam =>
    simp only
    cases scope.get .params <;> rfl
  | .variableParam | .objectParam =>
    simp only
    cases scope.get .params <;> cases scope.get .project <;> rfl
  | .pictureParam | .soundParam =>
    simp only
    cases scope.get .params <;> cases scope.get .object <;> rfl
  | .fragment | .node => rfl

/-- A node contributes to a document that stands behind another one as it does to the document by itself. -/
theorem behind_contribute (node : Node) (literals : List Value) (n : Handle) (id : Value) :
    contribute node literals (old.base.scope scope) n id (old.behind doc) =
      ((contribute node literals scope n id doc).1.map (Option.map old.base.scope),
        old.behind (contribute node literals scope n id doc).2) := by
  have hscene : (old.base.scope scope).sceneIn = scope.sceneIn := by
    unfold NodeScope.sceneIn
    rw [Base.get_scope]
    cases scope.get .sceneId <;> rfl
  have hparts : (old.behind doc).parts.size = old.base.parts + doc.parts.size := Cells.size_behind _ _ _
  have hobjects : (old.behind doc).objectCells.size = old.base.objects + doc.objectCells.size := Cells.size_behind _ _ _
  have hfunctions : (old.behind doc).functionCells.size = old.base.functions + doc.functionCells.size :=
    Cells.size_behind _ _ _
  have hreferences : (old.behind doc).references.size = old.base.references + doc.references.size :=
    Cells.size_behind _ _ _
  unfold contribute
  match node.kind with
  | .fragment => rfl
  | .project | .scene =>
    simp only [Except.map, Option.map_some, Base.scope_bind]
    rfl
  | .object | .sprite | .textBox =>
    simp only [Except.map, Option.map_some, hparts, hobjects, hscene, Document.behind_addPlace, Base.scope_insideObject]
    rw [← Document.behind_addObject]
    rfl
  | .picture | .sound =>
    simp only [Base.get_scope]
    cases scope.get .object with
    | none => rfl
    | some index =>
      refine Prod.ext rfl (Document.behind_changeObject old doc index ?_)
      exact fun _ => rfl
  | .variable =>
    simp only [Document.behind_ownerIn]
    rfl
  | .message | .table => rfl
  | .function =>
    simp only [Except.map, Option.map_some, hparts, hfunctions, Document.behind_addPlace, Base.scope_insideFunction]
    rw [← Document.behind_addFunction]
    rfl
  | .localVariable =>
    simp only [Base.get_scope, Document.behind_functionIn]
    cases scope.get .function with
    | none => rfl
    | some index =>
      refine Prod.ext rfl (Document.behind_changeFunction old doc index ?_)
      exact fun _ => rfl
  | .statement =>
    simp only [Base.get_scope, hparts, Document.behind_addPlace, ← Base.scope_insideStatement]
    exact behind_deliver old doc.addPlace (scope.get .statements) n (.block doc.parts.size)
      (some (scope.insideStatement doc.parts.size))
  | .script =>
    cases (node.get .extensions).items with
    | error fault => rfl
    | ok _ =>
      simp only [Base.get_scope, hparts, Document.behind_addPlace, Nat.add_assoc, ← Base.scope_insideScript]
      exact behind_deliver old doc.addPlace.addPlace (scope.get .params) n
        (.script (node.scriptHead id) doc.parts.size (doc.parts.size + 1))
        (some (scope.insideScript doc.parts.size (doc.parts.size + 1)))
  | .param => exact behind_deliver old doc (scope.get .params) n (.value (node.paramValue literals)) none
  | .node | .namedParam | .variableParam | .objectParam | .pictureParam | .soundParam =>
    simp only [behind_targetIn]
    cases targetIn node scope with
    | none => rfl
    | some target =>
      simp only [Option.map_some, hreferences, Document.behind_addReference]
      exact behind_deliver old (doc.addReference target _) (scope.get .params) n (.reference doc.references.size) none

/-- An id is given in the same way when the document stands behind another one. -/
theorem behind_request (e : Evaluation) (node : Node) (n : Handle) :
    request node n (e.behind old) = ((request node n e).1, (request node n e).2.behind old) := by
  unfold request
  cases node.requestedId? with
  | none => rfl
  | some authored =>
    have hid : (e.behind old).idOf? n = e.idOf? n := rfl
    have howner : (e.behind old).ownerOf? authored = e.ownerOf? authored := rfl
    simp only [instanceId_apply, hid, howner]
    split
    · split
      · rfl
      · split <;> rfl
    · cases e.idOf? n with
      | some id => rfl
      | none =>
        simp only [freshId, Evaluation.behind]
        rcases e.supply.pool.next e.supply.source IdPool.defaultLength with ⟨_ | s, pool, source⟩ <;> rfl

/-- A visit comes to the same when the document stands behind another one. -/
theorem behind_visit (e : Evaluation) (mark : Nat) (node : Node) (literals : List Value) :
    visit mark node literals (old.base.scope scope) (e.behind old) =
      ((visit mark node literals scope e).1.map (Option.map old.base.scope),
        (visit mark node literals scope e).2.behind old) := by
  have henter : (e.behind old).enter mark node = (e.enter mark node).behind old := rfl
  have hfor : (e.behind old).handleFor mark = e.handleFor mark := rfl
  have hadmission : admission node literals (old.base.scope scope) ((e.enter mark node).behind old).document =
      admission node literals scope (e.enter mark node).document := behind_admission old _ scope node literals
  rw [visit_apply, visit_apply, staged_apply, staged_apply, henter, hfor, hadmission, behind_request]
  cases admission node literals scope (e.enter mark node).document with
  | error fault => rfl
  | ok _ =>
    simp only
    rcases request node (e.handleFor mark) (e.enter mark node) with ⟨_ | id, e₀⟩
    · rfl
    · simp only [Evaluation.behind, behind_contribute]

mutual

/-- The evaluation of a tree comes to the same when the document stands behind another one. -/
theorem behind_evaluate (old : Document) (tree : Tree Nat) (scope : NodeScope) (e : Evaluation) :
    evaluate tree (old.base.scope scope) (e.behind old) =
      ((evaluate tree scope e).1, (evaluate tree scope e).2.behind old) := by
  match tree with
  | .literal _ => simp only [evaluate, Attempt.fail_apply]
  | .node mark node children =>
    simp only [evaluate_node, Attempt.bind_apply, behind_visit]
    rcases visit mark node (Tree.literals children) scope e with ⟨fault | inner, e₁⟩
    · rfl
    · exact behind_evaluateChildren old node inner children e₁

/-- The same of the children of a node. -/
theorem behind_evaluateChildren (old : Document) (parent : Node) (inner : Option NodeScope)
    (children : List (Tree Nat)) (e : Evaluation) :
    evaluateChildren parent (inner.map old.base.scope) children (e.behind old) =
      ((evaluateChildren parent inner children e).1, (evaluateChildren parent inner children e).2.behind old) := by
  match children with
  | [] => simp only [evaluateChildren, Attempt.pure_apply]
  | .literal v :: rest =>
    rw [evaluateChildren_literal, evaluateChildren_literal]
    split
    · exact behind_evaluateChildren old parent inner rest e
    · rfl
  | .node mark node children :: rest =>
    rw [evaluateChildren_node, evaluateChildren_node]
    cases inner with
    | none => rfl
    | some scope =>
      simp only [Option.map_some, Attempt.bind_apply, behind_evaluate old (.node mark node children) scope e]
      rcases evaluate (.node mark node children) scope e with ⟨fault | _, e₁⟩
      · rfl
      · exact behind_evaluateChildren old parent (some scope) rest e₁

end

end Evaluating

end SceneTree
