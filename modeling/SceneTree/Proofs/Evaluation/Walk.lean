import SceneTree.Proofs.Evaluation.Stages

/-!
# Walks as visits

Evaluating a tree is a sequence of visits: at each node a handle, a report and the three stages of the contribution.
What every visit keeps, every evaluation keeps, whether it succeeds or not.
-/

namespace SceneTree

namespace Tree

variable {ι : Type}

mutual

/-- The nodes of a tree with their marks, parents before children and the children in order. -/
def nodes : Tree ι → List (ι × Node)
  | .node mark data children => (mark, data) :: nodesOf children
  | .literal _ => []

/-- The nodes of several trees, in their order. -/
def nodesOf : List (Tree ι) → List (ι × Node)
  | [] => []
  | t :: rest => nodes t ++ nodesOf rest

end

end Tree

namespace Evaluation

/-- The handle of the node with a mark, if the node was met. -/
def handle? (e : Evaluation) (mark : Nat) : Option Handle := e.met.idxOf? mark

/-- The handle that the node with a mark has or gets. -/
def handleFor (e : Evaluation) (mark : Nat) : Handle := (e.handle? mark).getD e.met.length

/-- The evaluation when a node is reached: the node has been met, and a report says so. -/
def enter (e : Evaluation) (mark : Nat) (node : Node) : Evaluation :=
  { e with
    met := if (e.handle? mark).isSome then e.met else e.met ++ [mark]
    notices := e.notices ++ [.evaluating node.called (e.handleFor mark)] }

end Evaluation

namespace Evaluating

/-- What happens at a node before its children are evaluated: it gets a handle, is reported and contributes. -/
def visit (mark : Nat) (node : Node) (literals : List Value) (scope : NodeScope) : Evaluating (Option NodeScope) := do
  let handle ← handleOf mark
  notify (.evaluating node.called handle)
  staged node literals scope handle

/-- A node is visited before its children are evaluated. -/
theorem evaluate_node (mark : Nat) (node : Node) (children : List (Tree Nat)) (scope : NodeScope) :
    evaluate (.node mark node children) scope = (do
      let inner ← visit mark node (Tree.literals children) scope
      evaluateChildren node inner children) := by
  funext e
  simp only [evaluate, visit, emit_eq, Attempt.bind_apply]
  rcases handleOf mark e with ⟨_ | handle, e₁⟩
  · rfl
  · simp only
    rcases notify (.evaluating node.called handle) e₁ with ⟨_ | _, e₂⟩ <;> rfl

/-- A literal child is passed over inside a parameter and refused everywhere else. -/
theorem evaluateChildren_literal (parent : Node) (inner : Option NodeScope) (v : Value) (rest : List (Tree Nat)) :
    evaluateChildren parent inner (.literal v :: rest) =
      if parent.kind = .param then evaluateChildren parent inner rest
      else Attempt.fail (.requires "Literal value" "Param") := by
  simp only [evaluateChildren, Tree.root?]
  split <;> rfl

/-- A child that is a node is evaluated in the scope that its parent left, and refused if there is none. -/
theorem evaluateChildren_node (parent : Node) (inner : Option NodeScope) (mark : Nat) (node : Node)
    (children rest : List (Tree Nat)) :
    evaluateChildren parent inner (.node mark node children :: rest) =
      match inner with
      | some scope => (do
          evaluate (.node mark node children) scope
          evaluateChildren parent inner rest)
      | none => Attempt.fail (.cannotContain parent.called node.called) := by
  cases inner with
  | none =>
    simp only [evaluateChildren, Tree.root?]
    rfl
  | some scope =>
    simp only [evaluateChildren, Tree.root?]

/-- A node gets its handle when it is reached for the first time. -/
theorem handleOf_apply (mark : Nat) (e : Evaluation) :
    handleOf mark e =
      (.ok (e.handleFor mark), { e with met := if (e.handle? mark).isSome then e.met else e.met ++ [mark] }) := by
  unfold handleOf Evaluation.handleFor Evaluation.handle?
  rw [Attempt.step_apply]
  split
  · next h => simp [h]
  · next h => simp [h]

/-- A visit goes through the three stages after the node has been reached. -/
theorem visit_apply (mark : Nat) (node : Node) (literals : List Value) (scope : NodeScope) (e : Evaluation) :
    visit mark node literals scope e = staged node literals scope (e.handleFor mark) (e.enter mark node) := by
  rw [visit, Attempt.bind_apply_of_ok (handleOf_apply mark e)]
  rfl

section

variable {I : Evaluation → Prop} {P : Nat → Node → Prop}

mutual

/-- What all visits of nodes of some sort keep, the evaluation of a tree of such nodes keeps. -/
theorem evaluate_keeps (hv : ∀ mark node literals scope, P mark node → (visit mark node literals scope).Keeps I)
    (tree : Tree Nat) (scope : NodeScope) (hP : ∀ n ∈ tree.nodes, P n.1 n.2) : (evaluate tree scope).Keeps I := by
  match tree with
  | .literal _ =>
    rw [evaluate]
    exact .fail _
  | .node mark node children =>
    rw [Tree.nodes] at hP
    rw [evaluate_node]
    refine .bind (hv mark node _ scope (hP _ List.mem_cons_self)) fun inner => ?_
    exact evaluateChildren_keeps hv node inner children fun n hn => hP n (List.mem_cons_of_mem _ hn)

/-- What all visits keep, the evaluation of the children of a node keeps. -/
theorem evaluateChildren_keeps
    (hv : ∀ mark node literals scope, P mark node → (visit mark node literals scope).Keeps I) (parent : Node)
    (inner : Option NodeScope) (children : List (Tree Nat)) (hP : ∀ n ∈ Tree.nodesOf children, P n.1 n.2) :
    (evaluateChildren parent inner children).Keeps I := by
  match children with
  | [] =>
    rw [evaluateChildren]
    exact .pure ()
  | .literal v :: rest =>
    rw [evaluateChildren_literal]
    split
    · exact evaluateChildren_keeps hv parent inner rest hP
    · exact .fail _
  | .node mark node children :: rest =>
    rw [Tree.nodesOf] at hP
    rw [evaluateChildren_node]
    cases inner with
    | none => exact .fail _
    | some scope =>
      refine .bind (evaluate_keeps hv (.node mark node children) scope ?_) fun _ => ?_
      · exact fun n hn => hP n (List.mem_append_left _ hn)
      · exact evaluateChildren_keeps hv parent (some scope) rest fun n hn => hP n (List.mem_append_right _ hn)

end

end

end Evaluating

end SceneTree
