import SceneTree.Proofs.Containment.Success
import SceneTree.Proofs.Identity.Exhaustion
import SceneTree.Proofs.References.Resolution
import SceneTree.Proofs.Regularity.Layouts

/-!
# What compiling a text can fail for

A tree that was read is compiled, or reported with a fault that compiling has words for, or one of its nodes has a value
that nothing can be done with: an id that is no key, or something else where a map or a list is needed. What was read is
regular, so that nothing goes wrong any more once a tree is evaluated.
-/

namespace SceneTree

namespace Value

/-- A value that has no items is of the wrong type. -/
theorem fault_of_items {v : Value} {fault : Fault} (h : v.items = .error fault) : fault = .wrongType := by
  cases v <;> cases h <;> rfl

/-- A value that cannot be taken for a map is of the wrong type or has items that are no pairs. -/
theorem fault_of_toEntries {v : Value} {fault : Fault} (h : v.toEntries = .error fault) :
    fault = .wrongType ∨ fault = .badValue := by
  rw [toEntries.eq_def] at h
  split at h
  · cases h
  · rcases Outcome.bind_eq_error_iff.mp h with h | ⟨vs, -, h⟩
    · exact .inl (fault_of_items h)
    · rcases Outcome.bind_eq_error_iff.mp h with h | ⟨_, -, h⟩
      · obtain ⟨w, -, h⟩ := Outcome.exists_of_mapM_eq_error h
        rw [toPair] at h
        rcases Outcome.bind_eq_error_iff.mp h with h | ⟨us, -, h⟩
        · exact .inl (fault_of_items h)
        · split at h
          · split at h
            · cases h
            · cases h
              exact .inl rfl
          · cases h
            exact .inr rfl
      · cases h

end Value

/-- The lists that a project takes over. -/
def Node.blockLists : List Field :=
  [.expansionBlocks, .aiUtilizeBlocks, .hardwareLiteBlocks, .externalModules, .externalModulesLite]

/-- A value on a node is good for nothing: an id cannot be one, or what is to be a map or a list is none. -/
inductive Node.Refuses (node : Node) : Fault → Prop where
  | id {id : Value} (h : node.requestedId? = some id) (ht : id.truthy = true) (hk : id.isKey = false) :
      Refuses node .wrongType
  | interface {fault : Fault} (hk : node.kind = .project) (h : (node.get .interface).toEntries = .error fault) :
      Refuses node fault
  | blocks {fault : Fault} {field : Field} (hk : node.kind = .project) (hf : field ∈ blockLists)
      (h : (node.get field).items = .error fault) : Refuses node fault
  | data {fault : Fault} (hk : node.kind = .table) (h : (node.get .data).toEntries = .error fault) :
      Refuses node fault
  | extensions {fault : Fault} (hk : node.kind = .script) (h : (node.get .extensions).items = .error fault) :
      Refuses node fault

/-- A node refuses a value of the wrong type, or one that cannot be used. -/
theorem Node.Refuses.fault {node : Node} {fault : Fault} (h : node.Refuses fault) :
    fault = .wrongType ∨ fault = .badValue := by
  cases h with
  | id => exact .inl rfl
  | interface _ h | data _ h => exact Value.fault_of_toEntries h
  | blocks _ _ h | extensions _ h => exact .inl (Value.fault_of_items h)

namespace Evaluating

variable {node : Node} {literals : List Value} {scope : NodeScope} {doc : Document} {e e' : Evaluation}
  {handle : Handle} {fault : Fault}

/-- A fault on some nodes is explained: compiling has words for it, there was no id left, or a node refuses a value. -/
def Explained (supply : IdSupply) (nodes : List (Nat × Node)) (fault : Fault) : Prop :=
  fault.isCompile = true ∨ fault = .noFreshId ∧ supply.Exhausted nodes.length ∨ ∃ n ∈ nodes, n.2.Refuses fault

theorem isCompile_of_require {place : Place} {kind requirement : String}
    (h : scope.require kind place requirement = .error fault) : fault.isCompile = true := by
  rw [Scope.require] at h
  split at h
  · cases h
  · cases h
    rfl

/-- What a node has required is bound. -/
theorem get_of_require {place : Place} {kind requirement : String} {binding : Binding place}
    (h : scope.require kind place requirement = .ok binding) : scope.get place = some binding := by
  rw [Scope.require] at h
  split at h
  · next hs =>
    cases h
    exact hs
  · cases h

/-- What is not admitted stands in the wrong place or refuses a value. -/
theorem fault_of_admission (hw : scope.Within doc) (h : admission node literals scope doc = .error fault) :
    fault.isCompile = true ∨ node.Refuses fault := by
  unfold admission at h
  match hk : node.kind with
  | .fragment =>
    simp only [hk] at h
    cases h
  | .project =>
    simp only [hk] at h
    rcases Outcome.bind_eq_error_iff.mp h with h | ⟨_, -, h⟩
    · exact .inl (isCompile_of_require h)
    refine .inr ?_
    rcases Outcome.bind_eq_error_iff.mp h with h | ⟨_, -, h⟩
    · exact .interface hk h
    rcases Outcome.bind_eq_error_iff.mp h with h | ⟨_, -, h⟩
    · exact .blocks hk (by decide) h
    rcases Outcome.bind_eq_error_iff.mp h with h | ⟨_, -, h⟩
    · exact .blocks hk (by decide) h
    rcases Outcome.bind_eq_error_iff.mp h with h | ⟨_, -, h⟩
    · exact .blocks hk (by decide) h
    rcases Outcome.bind_eq_error_iff.mp h with h | ⟨_, -, h⟩
    · exact .blocks hk (by decide) h
    rcases Outcome.bind_eq_error_iff.mp h with h | ⟨_, -, h⟩
    · exact .blocks hk (by decide) h
    cases h
  | .scene | .message | .function | .sound | .statement | .script =>
    simp only [hk] at h
    rcases Outcome.bind_eq_error_iff.mp h with h | ⟨_, -, h⟩
    · exact .inl (isCompile_of_require h)
    cases h
  | .object | .sprite | .textBox | .variableParam | .objectParam | .pictureParam | .soundParam =>
    simp only [hk] at h
    rcases Outcome.bind_eq_error_iff.mp h with h | ⟨_, -, h⟩
    · exact .inl (isCompile_of_require h)
    rcases Outcome.bind_eq_error_iff.mp h with h | ⟨_, -, h⟩
    · exact .inl (isCompile_of_require h)
    cases h
  | .picture =>
    simp only [hk] at h
    rcases Outcome.bind_eq_error_iff.mp h with h | ⟨index, hi, h⟩
    · exact .inl (isCompile_of_require h)
    obtain ⟨object, ho⟩ :=
      Option.isSome_iff_exists.mp (Cells.isSome_get?_iff.mpr (hw.object index (get_of_require hi)))
    rw [ho] at h
    simp only at h
    split at h
    · cases h
      exact .inl rfl
    · cases h
  | .variable =>
    simp only [hk] at h
    rcases Outcome.bind_eq_error_iff.mp h with h | ⟨_, -, h⟩
    · exact .inl (isCompile_of_require h)
    rw [hasBoundObject] at h
    split at h
    · next index hi =>
      rw [if_pos (Cells.isSome_get?_iff.mpr (hw.object index hi))] at h
      cases h
    · cases h
  | .localVariable =>
    simp only [hk] at h
    rcases Outcome.bind_eq_error_iff.mp h with h | ⟨index, hi, h⟩
    · exact .inl (isCompile_of_require h)
    have hsome := Cells.isSome_get?_iff.mpr (hw.function index (get_of_require hi))
    rw [if_neg (by rw [← Option.not_isSome]; simp [hsome])] at h
    cases h
  | .table =>
    simp only [hk] at h
    rcases Outcome.bind_eq_error_iff.mp h with h | ⟨_, -, h⟩
    · exact .inl (isCompile_of_require h)
    rcases Outcome.bind_eq_error_iff.mp h with h | ⟨_, -, h⟩
    · exact .inr (.data hk h)
    cases h
  | .param =>
    simp only [hk] at h
    rcases Outcome.bind_eq_error_iff.mp h with h | ⟨_, -, h⟩
    · exact .inl (isCompile_of_require h)
    split at h
    · cases h
      exact .inl rfl
    · cases h
  | .namedParam =>
    simp only [hk] at h
    rcases Outcome.bind_eq_error_iff.mp h with h | ⟨_, -, h⟩
    · exact .inl (isCompile_of_require h)
    cases h
    exact .inl rfl
  | .node =>
    simp only [hk] at h
    cases h
    exact .inl rfl

/-- A node that is refused an id has one that cannot be one, or that is taken, or there is no id left. -/
theorem fault_of_request (h : request node handle e = (.error fault, e')) :
    fault.isCompile = true ∨ fault = .noFreshId ∧ e.supply.Exhausted 0 ∨ node.Refuses fault := by
  rcases request_eq node handle e with ⟨authored, ha, heq⟩ | heq
  · rw [heq, instanceId_apply] at h
    split at h
    · split at h
      · next hk =>
        cases h
        exact .inr (.inr (.id ha ‹_› (by simpa using hk)))
      · split at h
        · cases h
          exact .inl rfl
        · cases h
    · split at h
      · cases h
      · split at h
        · cases h
        · next hf =>
          cases h
          exact .inr (.inl (fault_of_freshId hf))
  · rw [heq] at h
    cases h

/-- What goes wrong at a node in a scope that names what is there. -/
theorem fault_of_visit {mark : Nat} (hw : scope.Within e.document)
    (h : visit mark node literals scope e = (.error fault, e')) :
    fault.isCompile = true ∨ fault = .noFreshId ∧ e.supply.Exhausted 0 ∨ node.Refuses fault := by
  rw [visit_apply, staged_apply] at h
  cases ha : admission node literals scope (e.enter mark node).document with
  | error fault' =>
    rw [ha] at h
    cases h
    exact (fault_of_admission hw ha).imp_right .inr
  | ok _ =>
    rw [ha] at h
    simp only at h
    rcases hr : request node (e.handleFor mark) (e.enter mark node) with ⟨fault' | id, e₁⟩
    · rw [hr] at h
      cases h
      have hrefused := fault_of_request hr
      exact hrefused
    · rw [hr] at h
      have hdocument : e₁.document = e.document := by
        have hd := document_request node (e.handleFor mark) (e.enter mark node)
        rw [hr] at hd
        exact hd
      have hadmissible : Admissible node literals scope e.document := admission_eq_ok_iff.mp ha
      have hcontribute : (contribute node literals scope (e.handleFor mark) id e.document).1 = .error fault := by
        rw [← hdocument]
        exact congrArg Prod.fst h
      by_cases hx : node.kind = .script → ∃ items, (node.get .extensions).items = .ok items
      · obtain ⟨out, doc', hok⟩ := contribute_of_admissible hadmissible hw hx (e.handleFor mark) id
        rw [hok] at hcontribute
        cases hcontribute
      · obtain ⟨hk, hx⟩ := Classical.not_imp.mp hx
        cases hi : (node.get .extensions).items with
        | ok items => exact absurd ⟨items, hi⟩ hx
        | error fault' =>
          simp only [contribute, hk, hi] at hcontribute
          cases hcontribute
          exact .inr (.inr (.extensions hk hi))

/-- An evaluation that succeeds leaves a later document. -/
theorem Evaluates.later {forest : List (Tree Nat)} (h : Evaluates scope forest e e') :
    e.document.Later e'.document :=
  h.keeps (P := fun _ => True) (fun heffect _ hl => hl.trans heffect.later) (fun _ _ => trivial) (.refl _)

/-- What is explained by some nodes after others have been visited is explained by all of them. -/
theorem Explained.after {nodes nodes' : List (Nat × Node)} {k : Nat} (h : Explained e'.supply nodes fault)
    (hu : Uses e k e') (hn : nodes ⊆ nodes') (hk : k + nodes.length ≤ nodes'.length) :
    Explained e.supply nodes' fault := by
  rcases h with h | ⟨h, hx⟩ | ⟨n, hmem, h⟩
  · exact .inl h
  · exact .inr (.inl ⟨h, hu.exhausted hx hk⟩)
  · exact .inr (.inr ⟨n, hn hmem, h⟩)

mutual

/-- What goes wrong in the evaluation of a tree goes wrong at one of its nodes. -/
theorem fault_of_evaluate (tree : Tree Nat) {scope : NodeScope} {e e' : Evaluation} (hw : scope.Within e.document)
    (h : evaluate tree scope e = (.error fault, e')) : Explained e.supply tree.nodes fault := by
  match tree with
  | .literal _ =>
    rw [evaluate] at h
    cases h
    exact .inl rfl
  | .node mark node children =>
    rw [evaluate_node] at h
    rw [Tree.nodes]
    rcases Attempt.bind_eq_error_iff.mp h with hv | ⟨inner, e₁, hv, hc⟩
    · rcases fault_of_visit hw hv with h | ⟨h, hx⟩ | h
      · exact .inl h
      · exact .inr (.inl ⟨h, (Uses.refl e).exhausted hx (Nat.zero_le _)⟩)
      · exact .inr (.inr ⟨_, List.mem_cons_self, h⟩)
    · refine (fault_of_evaluateChildren node inner children ?_ hc).after (uses_of_visit hv)
        (List.subset_cons_self _ _) (by rw [List.length_cons, Nat.add_comm])
      rintro scope' rfl
      obtain ⟨_, _, -, heffect, -⟩ := effect_of_visit hv
      exact heffect.within hw

/-- What goes wrong in the evaluation of the children of a node goes wrong at one of them or below. -/
theorem fault_of_evaluateChildren (parent : Node) (inner : Option NodeScope) (children : List (Tree Nat))
    {e e' : Evaluation} (hw : ∀ scope, inner = some scope → scope.Within e.document)
    (h : evaluateChildren parent inner children e = (.error fault, e')) :
    Explained e.supply (Tree.nodesOf children) fault := by
  match children with
  | [] =>
    rw [evaluateChildren] at h
    cases h
  | .literal v :: rest =>
    rw [evaluateChildren_literal] at h
    split at h
    · exact fault_of_evaluateChildren parent inner rest hw h
    · cases h
      exact .inl rfl
  | .node mark node children :: rest =>
    rw [evaluateChildren_node] at h
    rw [Tree.nodesOf]
    match inner with
    | none =>
      cases h
      exact .inl rfl
    | some scope =>
      have hscope := hw scope rfl
      rcases Attempt.bind_eq_error_iff.mp h with hf | ⟨_, e₁, hf, hr⟩
      · refine (fault_of_evaluate (.node mark node children) hscope hf).after (.refl e)
          (List.subset_append_left _ _) ?_
        rw [List.length_append]
        omega
      · have heval := evaluates_of_evaluate _ hf
        refine (fault_of_evaluateChildren parent (some scope) rest ?_ hr).after heval.uses
          (List.subset_append_right _ _) ?_
        · rintro scope' he
          cases he
          exact hscope.later heval.later
        · rw [Tree.nodesOf, Tree.nodesOf, List.append_nil, List.length_append]

end

/-- While trees are evaluated no reference is read. -/
theorem Evaluates.unread {forest : List (Tree Nat)} (h : Evaluates scope forest e e') (hd : e.document.Unread) :
    e'.document.Unread :=
  h.keeps (P := fun _ => True) (fun heffect _ hd => heffect.unread hd) (fun _ _ => trivial) hd

/-- A regular tree that has been evaluated can be written unless a name in it finds nothing. -/
theorem fault_of_text {tree : Tree Nat} {supply : IdSupply} {notice : Notice} (hr : tree.Regular)
    (he : evaluate tree .root (begun supply notice) = (.ok (), e))
    (ht : (Document.text .spaced e.document).1 = .error fault) : fault.isCompile = true := by
  have hM : Showable Value.Presentable := ⟨List.forall_mem_nil _, fun h hid => h.put ⟨_, rfl⟩ hid⟩
  have hregular : Tree.AllRegular [tree] := ⟨hr, trivial⟩
  have hhands : ∀ n ∈ Tree.nodesOf [tree], n.2.Hands Value.Presentable := fun n hn =>
    have hnode := hregular.of_mem_nodesOf n hn
    ⟨fun _ => (hnode .interface).entryList, fun _ => (hnode .data).entryList⟩
  have heval := evaluates_of_evaluate tree he
  have hbears := (heval.bearing hM hregular hhands (bearing_begun hM supply notice)).document
  have hhonest := (heval.unread (.empty _)).honest
  rw [Document.text_fst] at ht
  rcases hbears.layout_yields (fun _ => id) hhonest [] with ⟨v, hv, objects, functions, ho, hf, rfl⟩ |
    ⟨kind, name, herror⟩
  · obtain ⟨s, hs⟩ := hbears.exists_text (fun _ => id) ho hf
    rw [hv] at ht
    exact absurd (hs.symm.trans ht) nofun
  · rw [herror] at ht
    cases ht
    rfl

/-- A picture that is not there is a fault that compiling has words for. -/
theorem fault_of_checkSelectedPictures (h : doc.checkSelectedPictures = .error fault) : fault.isCompile = true := by
  unfold Document.checkSelectedPictures at h
  generalize doc.objectEntries = objects at h
  induction objects with
  | nil => cases h
  | cons object rest ih =>
    rcases Outcome.bind_eq_error_iff.mp h with h | ⟨_, -, h⟩
    · simp only at h
      split at h
      · cases h
      · cases h
        rfl
    · exact ih h

/-- A tree that was read from a text is compiled or reported with a fault that compiling has words for, unless there are
no ids left or a node of it refuses a value. -/
theorem explained_of_compileTree {text : String} {tree : Tree Unit} (hread : Markup.read text = .ok tree)
    (supply : IdSupply) {fault : Fault} (h : (compileTree (tree.numbered 0).1 supply).1 = .error fault) :
    fault.isCompile = true ∨
      fault = .noFreshId ∧ supply.Exhausted tree.nodes.length ∨
      (fault = .wrongType ∨ fault = .badValue) ∧ ∃ n ∈ tree.nodes, n.2.Refuses fault := by
  have hregular := (Markup.regular_of_read hread).numbered 0
  obtain ⟨notice, hcompile⟩ := compileTree_apply (tree.numbered 0).1 supply
  rw [hcompile] at h
  rcases he : evaluate (tree.numbered 0).1 .root (begun supply notice) with ⟨fault' | _, e⟩
  · rw [he] at h
    cases h
    rcases fault_of_evaluate _ (.root_scope _) he with h | ⟨h, hx⟩ | ⟨n, hn, hrefuses⟩
    · exact .inl h
    · have hlength := congrArg List.length (Tree.nodes_numbered 0 tree)
      rw [List.length_map, List.length_map] at hlength
      exact .inr (.inl ⟨h, hlength ▸ hx⟩)
    · obtain ⟨n', hn', hsame⟩ := Tree.exists_of_mem_numbered hn
      exact .inr (.inr ⟨hrefuses.fault, n', hn', hsame ▸ hrefuses⟩)
  · rw [he] at h
    refine .inl ?_
    simp only at h
    split at h
    · cases h
      rfl
    · split at h
      · next hcheck =>
        cases h
        exact fault_of_checkSelectedPictures hcheck
      · split at h
        · next htext =>
          cases h
          exact fault_of_text hregular he (congrArg Prod.fst htext)
        · cases h
    · cases h
      rfl

/-- The fault with which the tree of a text is not compiled when ids are counted. -/
def treeFault? (text : String) : Option Fault :=
  match Markup.read text with
  | .ok tree =>
    match (compileTree (tree.numbered 0).1 ⟨.empty, .counting []⟩).1 with
    | .error fault => some fault
    | .ok _ => none
  | .error _ => none

/-- What has such a fault describes a tree that is not compiled for it. -/
theorem exists_of_treeFault? {text : String} {fault : Fault} (h : treeFault? text = some fault) :
    ∃ tree, Markup.read text = .ok tree ∧
      (compileTree (tree.numbered 0).1 ⟨.empty, .counting []⟩).1 = .error fault := by
  unfold treeFault? at h
  split at h
  · next tree hread =>
    split at h
    · next hfault =>
      cases h
      exact ⟨tree, hread, hfault⟩
    · cases h
  · cases h

set_option maxRecDepth 10000 in
/-- An interface whose items are no pairs is refused. -/
theorem explained_of_compileTree_unpaired :
    ∃ tree, Markup.read "project interface=[\"a\"]" = .ok tree ∧
      (compileTree (tree.numbered 0).1 ⟨.empty, .counting []⟩).1 = .error .badValue ∧
      ∃ n ∈ tree.nodes, n.2.Refuses .badValue := by
  have hrun : treeFault? "project interface=[\"a\"]" = some .badValue := by cbv
  obtain ⟨tree, hread, hfault⟩ := exists_of_treeFault? hrun
  refine ⟨tree, hread, hfault, ?_⟩
  rcases explained_of_compileTree hread _ hfault with hwords | ⟨hids, -⟩ | ⟨-, hrefuses⟩
  · cases hwords
  · cases hids
  · exact hrefuses

set_option maxRecDepth 10000 in
/-- A number where the interface should be is a fault that compiling has no words for. -/
theorem compileTree_numberInterface :
    ∃ tree fault, Markup.read "project interface=5" = .ok tree ∧
      (compileTree (tree.numbered 0).1 ⟨.empty, .counting []⟩).1 = .error fault ∧ fault.isCompile = false := by
  have hrun : treeFault? "project interface=5" = some .wrongType := by cbv
  obtain ⟨tree, hread, hfault⟩ := exists_of_treeFault? hrun
  exact ⟨tree, .wrongType, hread, hfault, rfl⟩

end Evaluating

end SceneTree
