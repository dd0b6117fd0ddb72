import SceneTree.Proofs.Regularity.Refusals

/-!
# Evaluation as an agenda

An evaluation takes the occurrences of nodes and literals in a tree one after another: what is handled is taken off an
agenda, and what stands directly below it is put in front of the others. So the agenda is always what remains of the
tree in its order, and an evaluation that ends with a fault of the tree has done what was before the occurrence that is
at fault, and nothing at that occurrence.
-/

namespace SceneTree

instance {σ : Type} : LawfulMonad (Attempt σ) := LawfulMonad.mk' (Attempt σ)
  (fun x => by
    funext s
    change (x >>= fun a => pure a) s = x s
    rw [Attempt.bind_apply]
    rcases x s with ⟨_ | _, _⟩ <;> rfl)
  (fun _ _ => rfl)
  (fun x f g => by
    funext s
    simp only [Attempt.bind_apply]
    rcases x s with ⟨_ | _, _⟩ <;> rfl)

namespace Tree

variable {ι : Type}

mutual

/-- The occurrences of nodes and literals in a tree, parents before children and the children in order, each with what
is below it. -/
def preorder : Tree ι → List (Tree ι)
  | .node mark data children => .node mark data children :: preorderOf children
  | .literal v => [.literal v]

/-- The occurrences in several trees, in their order. -/
def preorderOf : List (Tree ι) → List (Tree ι)
  | [] => []
  | t :: rest => preorder t ++ preorderOf rest

end

/-- The node at the root of a tree with its mark; none if the tree is a literal. -/
def top? : Tree ι → Option (ι × Node)
  | .node mark data _ => some (mark, data)
  | .literal _ => none

/-- A tree occurs first in itself. -/
theorem head?_preorder (tree : Tree ι) : tree.preorder.head? = some tree := by
  cases tree <;> rfl

mutual

/-- The nodes of a tree are its occurrences that are no literals. -/
theorem filterMap_preorder : (tree : Tree ι) → tree.preorder.filterMap top? = tree.nodes
  | .node mark data children => by
    rw [preorder, nodes, List.filterMap_cons, filterMap_preorderOf children]
    rfl
  | .literal _ => rfl

theorem filterMap_preorderOf : (ts : List (Tree ι)) → (preorderOf ts).filterMap top? = nodesOf ts
  | [] => rfl
  | t :: rest => by
    rw [preorderOf, nodesOf, List.filterMap_append, filterMap_preorder t, filterMap_preorderOf rest]

end

/-- The nodes of a tree are among those of several trees that it is one of. -/
theorem mem_nodesOf_of_mem {t : Tree ι} {ts : List (Tree ι)} (ht : t ∈ ts) {n : ι × Node} (hn : n ∈ t.nodes) :
    n ∈ nodesOf ts := by
  induction ts with
  | nil => exact absurd ht List.not_mem_nil
  | cons u rest ih =>
    rw [nodesOf]
    rcases List.mem_cons.mp ht with rfl | ht
    · exact List.mem_append_left _ hn
    · exact List.mem_append_right _ (ih ht)

theorem preorderOf_append (ts us : List (Tree ι)) : preorderOf (ts ++ us) = preorderOf ts ++ preorderOf us := by
  induction ts with
  | nil => rfl
  | cons t rest ih => rw [List.cons_append, preorderOf, preorderOf, ih, List.append_assoc]

end Tree

namespace Evaluating

/-- Where an occurrence stands: it is what is evaluated, in a scope, or it is a child of a node, in the scope that the
node left to its children, if it takes any. -/
inductive Standing where
  | root (scope : NodeScope)
  | child (parent : Node) (inner : Option NodeScope)

/-- A tree that remains to be evaluated. -/
structure Occurrence where
  tree : Tree Nat
  standing : Standing

namespace Standing

/-- The scope for a node with this standing. A node that takes no children refuses it. -/
def scopeFor (standing : Standing) (node : Node) : Except Fault NodeScope :=
  match standing with
  | root scope | child _ (some scope) => .ok scope
  | child parent none => .error (.cannotContain parent.called node.called)

/-- Whether a literal may have this standing. -/
def admitsLiteral : Standing → Except Fault Unit
  | root _ => .error (.requires "Literal value" "Param")
  | child parent _ => if parent.kind = .param then .ok () else .error (.requires "Literal value" "Param")

end Standing

namespace Occurrence

/-- Handles an occurrence alone. What remains is its children. -/
def handle (o : Occurrence) : Evaluating (List Occurrence) :=
  match o.tree with
  | .literal _ => do
    Attempt.ofExcept o.standing.admitsLiteral
    pure []
  | .node mark node children => do
    let scope ← Attempt.ofExcept (o.standing.scopeFor node)
    let token ← handleOf mark
    notify (.evaluating node.called token)
    let inner ← emit node (Tree.literals children) scope token
    pure (children.map (⟨·, .child node inner⟩))

/-- Evaluates an occurrence with all that is below it. -/
def evaluate (o : Occurrence) : Evaluating Unit :=
  match o.tree with
  | .literal _ => Attempt.ofExcept o.standing.admitsLiteral
  | .node _ node _ => do
    let scope ← Attempt.ofExcept (o.standing.scopeFor node)
    Evaluating.evaluate o.tree scope

end Occurrence

/-- Handles the first occurrences of an agenda, up to a number of them, the children of each right after it. -/
def follow : Nat → List Occurrence → Evaluating (List Occurrence)
  | 0, agenda => pure agenda
  | _ + 1, [] => pure []
  | n + 1, o :: rest => do
    let below ← o.handle
    follow n (below ++ rest)

/-- Handling a node is a visit of it. -/
theorem handle_node (mark : Nat) (node : Node) (children : List (Tree Nat)) (standing : Standing) :
    Occurrence.handle ⟨.node mark node children, standing⟩ = (do
      let scope ← Attempt.ofExcept (standing.scopeFor node)
      let inner ← visit mark node (Tree.literals children) scope
      pure (children.map (⟨·, .child node inner⟩))) := by
  simp only [Occurrence.handle, visit, emit_eq, bind_assoc]

/-- A literal that is handled leaves all as it is, and a node that is handled has been visited. -/
theorem Occurrence.of_handle_eq_ok {o : Occurrence} {below : List Occurrence} {e e' : Evaluation}
    (h : o.handle e = (.ok below, e')) :
    (∃ v, o.tree = .literal v ∧ below = [] ∧ e' = e) ∨
      ∃ mark node children scope inner, o.tree = .node mark node children ∧ o.standing.scopeFor node = .ok scope ∧
        visit mark node (Tree.literals children) scope e = (.ok inner, e') ∧
        below = children.map (⟨·, .child node inner⟩) := by
  obtain ⟨tree, standing⟩ := o
  cases tree with
  | literal v =>
    obtain ⟨_, _, hv, h⟩ := Attempt.bind_eq_ok_iff.mp h
    obtain rfl : e = _ := congrArg Prod.snd hv
    cases h
    exact .inl ⟨v, rfl, rfl, rfl⟩
  | node mark node children =>
    rw [handle_node] at h
    obtain ⟨scope, e₀, hs, h⟩ := Attempt.bind_eq_ok_iff.mp h
    obtain rfl : e = e₀ := congrArg Prod.snd hs
    obtain ⟨inner, e₁, hv, h⟩ := Attempt.bind_eq_ok_iff.mp h
    cases h
    exact .inr ⟨mark, node, children, scope, inner, rfl, congrArg Prod.fst hs, hv, rfl⟩

/-- Children are evaluated one after another. -/
theorem evaluateChildren_cons (parent : Node) (inner : Option NodeScope) (child : Tree Nat) (rest : List (Tree Nat)) :
    evaluateChildren parent inner (child :: rest) = (do
      Occurrence.evaluate ⟨child, .child parent inner⟩
      evaluateChildren parent inner rest) := by
  cases child with
  | literal v =>
    rw [evaluateChildren_literal]
    simp only [Occurrence.evaluate, Standing.admitsLiteral]
    split <;> rfl
  | node mark node children =>
    rw [evaluateChildren_node]
    cases inner <;> rfl

mutual

/-- To handle as many occurrences as are in the first tree of an agenda is to evaluate that tree. -/
theorem follow_tree (tree : Tree Nat) (standing : Standing) (rest : List Occurrence) (n : Nat) :
    follow (tree.preorder.length + n) (⟨tree, standing⟩ :: rest) = (do
      Occurrence.evaluate ⟨tree, standing⟩
      follow n rest) := by
  match tree with
  | .literal v =>
    rw [Tree.preorder, List.length_singleton, Nat.add_comm, follow]
    simp only [Occurrence.handle, Occurrence.evaluate, bind_assoc, pure_bind, List.nil_append]
  | .node mark node children =>
    have hlength : (Tree.preorder (.node mark node children)).length + n =
        (Tree.preorderOf children).length + n + 1 := by
      rw [Tree.preorder, List.length_cons]
      omega
    rw [hlength, follow, handle_node]
    simp only [Occurrence.evaluate, evaluate_node, bind_assoc, pure_bind]
    congr 1
    funext scope
    congr 1
    funext inner
    exact follow_children node inner children rest n

/-- To handle as many occurrences as are below a node is to evaluate its children. -/
theorem follow_children (parent : Node) (inner : Option NodeScope) (children : List (Tree Nat))
    (rest : List Occurrence) (n : Nat) :
    follow ((Tree.preorderOf children).length + n) (children.map (⟨·, .child parent inner⟩) ++ rest) = (do
      evaluateChildren parent inner children
      follow n rest) := by
  match children with
  | [] =>
    rw [Tree.preorderOf, List.length_nil, Nat.zero_add, evaluateChildren, pure_bind]
    rfl
  | child :: others =>
    rw [Tree.preorderOf, List.length_append, Nat.add_assoc, List.map_cons, List.cons_append, follow_tree,
      evaluateChildren_cons, bind_assoc]
    congr 1
    funext _
    exact follow_children parent inner others rest n

end

/-- The occurrences that remain after some were handled are the rest of the agenda in its order. -/
theorem preorderOf_follow {n : Nat} {agenda agenda' : List Occurrence} {e e' : Evaluation}
    (h : follow n agenda e = (.ok agenda', e')) :
    Tree.preorderOf (agenda'.map (·.tree)) = (Tree.preorderOf (agenda.map (·.tree))).drop n := by
  induction n generalizing agenda e with
  | zero =>
    cases h
    rfl
  | succ n ih =>
    cases agenda with
    | nil =>
      cases h
      rfl
    | cons o rest =>
      rw [follow] at h
      obtain ⟨below, e₁, ho, h⟩ := Attempt.bind_eq_ok_iff.mp h
      have hbelow : o.tree.preorder = o.tree :: Tree.preorderOf (below.map (·.tree)) := by
        rcases Occurrence.of_handle_eq_ok ho with
          ⟨v, htree, rfl, -⟩ | ⟨mark, node, children, -, inner, htree, -, -, rfl⟩
        · rw [htree]
          rfl
        · simp only [htree, Tree.preorder, List.map_map, Function.comp_def, List.map_id']
      rw [ih h, List.map_append, Tree.preorderOf_append, List.map_cons, Tree.preorderOf, hbelow, List.cons_append,
        List.drop_succ_cons]

/-- The occurrence that is next after some of a tree were handled comes right after these. -/
theorem getElem?_preorder_of_follow {tree : Tree Nat} {standing : Standing} {n : Nat} {o : Occurrence}
    {rest : List Occurrence} {e e' : Evaluation} (h : follow n [⟨tree, standing⟩] e = (.ok (o :: rest), e')) :
    tree.preorder[n]? = some o.tree := by
  have hremains := preorderOf_follow h
  rw [List.map_singleton, Tree.preorderOf, Tree.preorderOf, List.append_nil, List.map_cons, Tree.preorderOf]
    at hremains
  rw [← List.head?_drop, ← hremains, List.head?_append, Tree.head?_preorder]
  rfl

/-- An agenda that fails fails at one of its occurrences, after those before it. -/
theorem exists_of_follow_eq_error {n : Nat} {agenda : List Occurrence} {e e' : Evaluation} {fault : Fault}
    (h : follow n agenda e = (.error fault, e')) :
    ∃ m o rest e₀, follow m agenda e = (.ok (o :: rest), e₀) ∧ o.handle e₀ = (.error fault, e') := by
  induction n generalizing agenda e with
  | zero => cases h
  | succ n ih =>
    cases agenda with
    | nil => cases h
    | cons o rest =>
      rw [follow] at h
      rcases Attempt.bind_eq_error_iff.mp h with h | ⟨below, e₁, ho, h⟩
      · exact ⟨0, o, rest, e, rfl, h⟩
      · obtain ⟨m, o', rest', e₀, hm, ho'⟩ := ih h
        exact ⟨m + 1, o', rest', e₀, (Attempt.bind_apply_of_ok ho).trans hm, ho'⟩

/-- What every visit that succeeds keeps holds after some occurrences of an agenda were handled: a property of the state
and of the nodes visited so far, if the nodes are of some sort, and so are the scopes that they leave to their children.
-/
theorem follow_keeps {I : List (Nat × Node) → Evaluation → Prop} {S : NodeScope → Prop} {P : Nat × Node → Prop}
    (hvisit : ∀ {mark node literals scope done e out e'}, P (mark, node) → S scope → I done e →
      visit mark node literals scope e = (.ok out, e') →
        I (done ++ [(mark, node)]) e' ∧ ∀ inner, out = some inner → S inner)
    {n : Nat} {agenda agenda' : List Occurrence} {done : List (Nat × Node)} {e e' : Evaluation}
    (hnodes : ∀ o ∈ agenda, ∀ c ∈ o.tree.nodes, P c)
    (hscopes : ∀ o ∈ agenda, ∀ node scope, o.standing.scopeFor node = .ok scope → S scope) (hI : I done e)
    (h : follow n agenda e = (.ok agenda', e')) :
    I (done ++ ((Tree.preorderOf (agenda.map (·.tree))).take n).filterMap Tree.top?) e' := by
  induction n generalizing agenda done e with
  | zero =>
    cases h
    rw [List.take_zero, List.filterMap_nil, List.append_nil]
    exact hI
  | succ n ih =>
    cases agenda with
    | nil =>
      cases h
      rw [List.map_nil, Tree.preorderOf, List.take_nil, List.filterMap_nil, List.append_nil]
      exact hI
    | cons o rest =>
      rw [follow] at h
      obtain ⟨below, e₁, ho, hrun⟩ := Attempt.bind_eq_ok_iff.mp h
      clear h
      obtain ⟨hthis, hrest⟩ := List.forall_mem_cons.mp hnodes
      obtain ⟨hstands, hrest'⟩ := List.forall_mem_cons.mp hscopes
      rcases Occurrence.of_handle_eq_ok ho with
        ⟨v, htree, rfl, rfl⟩ | ⟨mark, node, children, scope, inner, htree, hs, hv, rfl⟩
      · rw [List.map_cons, Tree.preorderOf, htree]
        exact ih hrest hrest' hI hrun
      · rw [htree, Tree.nodes] at hthis
        obtain ⟨hthis, hchildren⟩ := List.forall_mem_cons.mp hthis
        obtain ⟨hI', hinner⟩ := hvisit hthis (hstands node scope hs) hI hv
        have hbelow : ∀ o ∈ children.map (⟨·, .child node inner⟩ : Tree Nat → Occurrence),
            (∀ c ∈ o.tree.nodes, P c) ∧ ∀ node scope, o.standing.scopeFor node = .ok scope → S scope := by
          intro o hmem
          obtain ⟨child, hchild, rfl⟩ := List.mem_map.mp hmem
          refine ⟨fun c hc => hchildren c (Tree.mem_nodesOf_of_mem hchild hc), fun other scope' hscope => ?_⟩
          cases inner with
          | none => cases hscope
          | some inner =>
            cases hscope
            exact hinner _ rfl
        have hnext := ih (List.forall_mem_append.mpr ⟨fun o ho => (hbelow o ho).1, hrest⟩)
          (List.forall_mem_append.mpr ⟨fun o ho => (hbelow o ho).2, hrest'⟩) hI' hrun
        rw [List.map_append, List.map_map, Function.comp_def, List.map_id', List.append_assoc] at hnext
        rw [List.map_cons, Tree.preorderOf, htree, Tree.preorder, List.cons_append, List.take_succ_cons,
          ← Tree.preorderOf_append]
        exact hnext

section

variable {node : Node} {literals : List Value} {scope : NodeScope} {handle : Handle} {e e' : Evaluation} {fault : Fault}

/-- An id that is refused with a fault of the tree is refused before anything is drawn. -/
theorem eq_of_request_eq_error (h : request node handle e = (.error fault, e')) (hf : fault.isCompile = true) :
    e' = e := by
  rcases request_eq node handle e with ⟨authored, -, heq⟩ | heq
  · rw [heq, instanceId_apply] at h
    split at h
    · split at h
      · cases h
        rfl
      · split at h
        · cases h
          rfl
        · cases h
    · split at h
      · cases h
      · split at h
        · cases h
        · next hfresh =>
          cases h
          rw [(fault_of_freshId hfresh).1] at hf
          cases hf
  · rw [heq] at h
    cases h

/-- A place that collects nothing is no fault of the tree. -/
theorem not_isCompile_of_deliver {collector : Option Collector} {item : Item} {inner : Option NodeScope}
    {doc : Document} (h : (deliver collector handle item inner doc).1 = .error fault) : fault.isCompile = false := by
  unfold deliver at h
  split at h
  · cases h
  · cases h
    rfl

/-- What can be wrong with an entry is never a fault of the tree. -/
theorem not_isCompile_of_contribute {id : Value} {doc : Document}
    (h : (contribute node literals scope handle id doc).1 = .error fault) : fault.isCompile = false := by
  cases hk : node.kind
  case script =>
    simp only [contribute, hk] at h
    split at h
    · exact not_isCompile_of_deliver h
    · next hitems =>
      obtain rfl := Except.error.inj h
      rw [Value.fault_of_items hitems]
      rfl
  case statement | param =>
    simp only [contribute, hk] at h
    exact not_isCompile_of_deliver h
  case picture | sound | localVariable =>
    simp only [contribute, hk] at h
    split at h
    · cases h
    · cases h
      rfl
  case node | namedParam | variableParam | objectParam | pictureParam | soundParam =>
    simp only [contribute, hk] at h
    split at h
    · exact not_isCompile_of_deliver h
    · cases h
      rfl
  all_goals
    simp only [contribute, hk] at h
    cases h

/-- A visit that ends with a fault of the tree has only reached the node. -/
theorem eq_enter_of_visit_eq_error {mark : Nat} (h : visit mark node literals scope e = (.error fault, e'))
    (hf : fault.isCompile = true) : e' = e.enter mark node := by
  rw [visit_apply, staged_apply] at h
  split at h
  · cases h
    rfl
  · split at h
    · next hr =>
      cases h
      exact eq_of_request_eq_error hr hf
    · have hfault := not_isCompile_of_contribute (congrArg Prod.fst h)
      rw [hf] at hfault
      cases hfault

end

/-- An occurrence that ends with a fault of the tree has at most been reached. -/
theorem Occurrence.eq_of_handle_eq_error {o : Occurrence} {e e' : Evaluation} {fault : Fault}
    (h : o.handle e = (.error fault, e')) (hf : fault.isCompile = true) :
    e' = e ∨ ∃ mark node children, o.tree = .node mark node children ∧ e' = e.enter mark node := by
  obtain ⟨tree, standing⟩ := o
  cases tree with
  | literal v =>
    rcases Attempt.bind_eq_error_iff.mp h with h | ⟨_, _, -, h⟩
    · exact .inl (congrArg Prod.snd h).symm
    · cases h
  | node mark node children =>
    rw [handle_node] at h
    rcases Attempt.bind_eq_error_iff.mp h with h | ⟨scope, e₁, hs, h⟩
    · exact .inl (congrArg Prod.snd h).symm
    · obtain rfl : e = e₁ := congrArg Prod.snd hs
      rcases Attempt.bind_eq_error_iff.mp h with h | ⟨_, _, -, h⟩
      · exact .inr ⟨mark, node, children, rfl, eq_enter_of_visit_eq_error h hf⟩
      · cases h

/-- To evaluate a tree is to handle as many occurrences as are in it. -/
theorem follow_root (tree : Tree Nat) (scope : NodeScope) (e : Evaluation) :
    follow tree.preorder.length [⟨tree, .root scope⟩] e =
      ((evaluate tree scope e).1.map fun _ => [], (evaluate tree scope e).2) := by
  have hroot : Occurrence.evaluate ⟨tree, .root scope⟩ = evaluate tree scope := by
    cases tree <;> rfl
  have h := congrFun (follow_tree tree (.root scope) [] 0) e
  rw [Nat.add_zero, hroot, Attempt.bind_apply] at h
  rw [h]
  rcases evaluate tree scope e with ⟨_ | _, _⟩ <;> rfl

/-- Evaluating a tree is handling its occurrences in order, with an agenda that always is what remains of them. When it
ends with a fault of the tree, there is an occurrence at which it does: the handling of those before it has made the
document, the ids and their owners what they are in the end, and the occurrence itself has at most been met. -/
theorem evaluate_eq_follow (tree : Tree Nat) (scope : NodeScope) (e : Evaluation) :
    let agenda : List Occurrence := [⟨tree, .root scope⟩]
    follow tree.preorder.length agenda e = ((evaluate tree scope e).1.map fun _ => [], (evaluate tree scope e).2) ∧
      (∀ n agenda' e', follow n agenda e = (.ok agenda', e') →
        Tree.preorderOf (agenda'.map (·.tree)) = tree.preorder.drop n) ∧
      ∀ fault e', evaluate tree scope e = (.error fault, e') → fault.isCompile = true →
        ∃ n o rest e₀, follow n agenda e = (.ok (o :: rest), e₀) ∧ tree.preorder[n]? = some o.tree ∧
          (o.handle e₀).1 = .error fault ∧ e'.document = e₀.document ∧ e'.supply = e₀.supply ∧ e'.ids = e₀.ids ∧
          e'.owners = e₀.owners ∧
          (e'.met = e₀.met ∨ ∃ mark node children, o.tree = .node mark node children ∧ e'.met = e₀.met ++ [mark]) := by
  intro agenda
  have hfollow := follow_root tree scope e
  refine ⟨hfollow, fun n agenda' e' h => ?_, fun fault e' h hf => ?_⟩
  · rw [preorderOf_follow h, List.map_singleton, Tree.preorderOf, Tree.preorderOf, List.append_nil]
  · rw [h] at hfollow
    obtain ⟨n, o, rest, e₀, hn, ho⟩ := exists_of_follow_eq_error hfollow
    refine ⟨n, o, rest, e₀, hn, getElem?_preorder_of_follow hn, congrArg Prod.fst ho, ?_⟩
    rcases Occurrence.eq_of_handle_eq_error ho hf with rfl | ⟨mark, node, children, htree, rfl⟩
    · exact ⟨rfl, rfl, rfl, rfl, .inl rfl⟩
    · refine ⟨rfl, rfl, rfl, rfl, ?_⟩
      by_cases hmet : (e₀.handle? mark).isSome
      · exact .inl (if_pos hmet)
      · exact .inr ⟨mark, node, children, htree, if_neg hmet⟩

/-- A scene and two messages, of which the first is given the id of the scene. -/
def takenId : Tree Nat :=
  .node 0 ⟨.fragment, fun _ => .null⟩
    [.node 1 ⟨.scene, fun field => if field = .id then .str "a" else .null⟩ [],
      .node 2 ⟨.message, fun field => if field = .id then .str "a" else .null⟩ [],
      .node 3 ⟨.message, fun _ => .null⟩ []]

theorem evaluate_eq_follow_takenId :
    let e : Evaluation := .start ⟨.empty, .counting []⟩
    let scope : NodeScope := Scope.empty.bind .project (some ())
    ∃ e', evaluate takenId scope e = (.error (.idTaken (.str "a")), e') ∧
      ∃ n o rest e₀, follow n [⟨takenId, .root scope⟩] e = (.ok (o :: rest), e₀) ∧
        takenId.preorder[n]? = some o.tree ∧ (o.handle e₀).1 = .error (.idTaken (.str "a")) ∧
        e'.document = e₀.document ∧ e'.supply = e₀.supply ∧ e'.ids = e₀.ids ∧ e'.owners = e₀.owners := by
  intro e scope
  have hfault : (evaluate takenId scope e).1 = .error (.idTaken (.str "a")) := by with_unfolding_all rfl
  have h : evaluate takenId scope e = (.error (.idTaken (.str "a")), (evaluate takenId scope e).2) :=
    Prod.ext hfault rfl
  obtain ⟨n, o, rest, e₀, hn, htree, ho, hdocument, hsupply, hids, howners, -⟩ :=
    (evaluate_eq_follow takenId scope e).2.2 _ _ h rfl
  exact ⟨_, h, n, o, rest, e₀, hn, htree, ho, hdocument, hsupply, hids, howners⟩

end Evaluating

end SceneTree
