import SceneTree.Proofs.Evaluation.Runs
import SceneTree.Proofs.Translation.Naming

/-!
# Evaluations that succeed

An evaluation that succeeds visits every node with success. `Evaluates` is the sequence of these visits, whether the
nodes are new or were met before; what is said of a successful evaluation follows from it by induction.
-/

namespace SceneTree.Evaluating

variable {mark : Nat} {node : Node} {literals : List Value} {scope inner : NodeScope} {e e₁ e₂ e' : Evaluation}
  {out : Option NodeScope} {children rest forest : List (Tree Nat)}

/-- In a visit that succeeds, the node is granted an id under its handle, and its contribution has an effect. -/
theorem effect_of_visit (h : visit mark node literals scope e = (.ok out, e₁)) :
    ∃ id e₀, request node (e.handleFor mark) (e.enter mark node) = (.ok id, e₀) ∧
      Effect scope (e.handleFor mark) e.document ⟨id, node, literals.map .literal⟩ out e₁.document ∧
      e₁ = { e₀ with document := e₁.document } := by
  rw [visit_apply, staged_apply] at h
  have hdocument : (e.enter mark node).document = e.document := rfl
  rw [hdocument] at h
  cases ha : admission node literals scope e.document with
  | error fault =>
    rw [ha] at h
    cases h
  | ok _ =>
    rw [ha] at h
    simp only at h
    rcases hr : request node (e.handleFor mark) (e.enter mark node) with ⟨_ | id, e₀⟩
    · rw [hr] at h
      cases h
    · rw [hr] at h
      simp only [Prod.mk.injEq] at h
      obtain ⟨hout, rfl⟩ := h
      have hdoc := document_request node (e.handleFor mark) (e.enter mark node)
      rw [hr] at hdoc
      simp only [hdocument] at hdoc
      rw [hdoc] at hout ⊢
      refine ⟨id, e₀, rfl, .of_contribute ?_ ?_, rfl⟩
      · rw [Tree.literals_map_literal]
        exact ha
      · rw [Tree.literals_map_literal]
        exact Prod.ext hout rfl

/-- Some trees are evaluated in a scope with success, one after the other: the state before and the state after. -/
inductive Evaluates : NodeScope → List (Tree Nat) → Evaluation → Evaluation → Prop where
  | nil (scope : NodeScope) (e : Evaluation) : Evaluates scope [] e e
  | literal (v : Value) {scope : NodeScope} {rest : List (Tree Nat)} {e e' : Evaluation}
      (hr : Evaluates scope rest e e') : Evaluates scope (.literal v :: rest) e e'
  | leaf {scope : NodeScope} {mark : Nat} {node : Node} {children rest : List (Tree Nat)} {e e₁ e' : Evaluation}
      (hv : visit mark node (Tree.literals children) scope e = (.ok none, e₁)) (hc : Tree.nodesOf children = [])
      (hr : Evaluates scope rest e₁ e') : Evaluates scope (.node mark node children :: rest) e e'
  | branch {scope inner : NodeScope} {mark : Nat} {node : Node} {children rest : List (Tree Nat)}
      {e e₁ e₂ e' : Evaluation} (hv : visit mark node (Tree.literals children) scope e = (.ok (some inner), e₁))
      (hc : Evaluates inner children e₁ e₂) (hr : Evaluates scope rest e₂ e') :
      Evaluates scope (.node mark node children :: rest) e e'

/-- What every contribution keeps, of nodes of some sort, evaluations keep. -/
theorem Evaluates.keeps {I : Document → Prop} {P : Node → Prop} (h : Evaluates scope forest e e')
    (hstep : ∀ {scope n doc b out doc'}, Effect scope n doc b out doc' → P b.node → I doc → I doc')
    (hnodes : ∀ n ∈ Tree.nodesOf forest, P n.2) (hI : I e.document) : I e'.document := by
  induction h with
  | nil => exact hI
  | literal _ _ ih =>
    rw [Tree.nodesOf, Tree.nodes, List.nil_append] at hnodes
    exact ih hnodes hI
  | leaf hv hc _ ih =>
    rw [Tree.nodesOf, Tree.nodes, hc, List.singleton_append, List.forall_mem_cons] at hnodes
    obtain ⟨_, _, -, heffect, -⟩ := effect_of_visit hv
    exact ih hnodes.2 (hstep heffect hnodes.1 hI)
  | branch hv _ _ ihc ihr =>
    rw [Tree.nodesOf, Tree.nodes, List.cons_append, List.forall_mem_cons, List.forall_mem_append] at hnodes
    obtain ⟨_, _, -, heffect, -⟩ := effect_of_visit hv
    exact ihr hnodes.2.2 (ihc hnodes.2.1 (hstep heffect hnodes.1 hI))

/-- A tree and then others are evaluated one after the other. -/
theorem Evaluates.cons {t : Tree Nat} (h : Evaluates scope [t] e e₁) (hr : Evaluates scope rest e₁ e') :
    Evaluates scope (t :: rest) e e' := by
  cases h with
  | literal v h =>
    cases h
    exact .literal v hr
  | leaf hv hc h =>
    cases h
    exact .leaf hv hc hr
  | branch hv hc h =>
    cases h
    exact .branch hv hc hr

mutual

/-- The evaluation of a tree that succeeds is a sequence of visits. -/
theorem evaluates_of_evaluate (tree : Tree Nat) {scope : NodeScope} {e e' : Evaluation}
    (h : evaluate tree scope e = (.ok (), e')) : Evaluates scope [tree] e e' := by
  match tree with
  | .literal _ =>
    rw [evaluate] at h
    cases h
  | .node mark node children =>
    rw [evaluate_node] at h
    obtain ⟨out, e₁, hv, hc⟩ := Attempt.bind_eq_ok_iff.mp h
    cases out with
    | none =>
      obtain ⟨rfl, hnodes, -⟩ := of_evaluateChildren_none hc
      exact .leaf hv hnodes (.nil _ _)
    | some inner => exact .branch hv (evaluates_of_evaluateChildren children hc) (.nil _ _)

/-- The evaluation of the children of a node that succeeds is a sequence of visits. -/
theorem evaluates_of_evaluateChildren (children : List (Tree Nat)) {parent : Node} {scope : NodeScope}
    {e e' : Evaluation} (h : evaluateChildren parent (some scope) children e = (.ok (), e')) :
    Evaluates scope children e e' := by
  match children with
  | [] =>
    rw [evaluateChildren] at h
    cases h
    exact .nil _ _
  | .literal v :: rest =>
    rw [evaluateChildren_literal] at h
    split at h
    · exact .literal v (evaluates_of_evaluateChildren rest h)
    · cases h
  | .node mark node children :: rest =>
    rw [evaluateChildren_node] at h
    obtain ⟨_, e₁, hf, hr⟩ := Attempt.bind_eq_ok_iff.mp h
    exact (evaluates_of_evaluate (.node mark node children) hf).cons (evaluates_of_evaluateChildren rest hr)

end

end SceneTree.Evaluating
