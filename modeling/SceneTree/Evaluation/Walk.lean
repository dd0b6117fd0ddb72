import SceneTree.Evaluation.Emit

/-!
# Walking a tree

A tree is evaluated from its root on, every node before its children and the children in order. A plain value may stand
only among the children of a parameter.
-/

namespace SceneTree

namespace Tree

variable {ι : Type}

/-- The root of a tree; none if it is a plain value. -/
def root? : Tree ι → Option Node
  | .node _ data _ => some data
  | .literal _ => none

/-- The plain values among some trees. -/
def literals : List (Tree ι) → List Value
  | [] => []
  | .literal v :: rest => v :: literals rest
  | .node .. :: rest => literals rest

end Tree

namespace Evaluating

mutual

/-- Evaluates a tree in a scope. -/
def evaluate (tree : Tree Nat) (scope : NodeScope) : Evaluating Unit :=
  match tree with
  | .literal _ => Attempt.fail (.requires "Literal value" "Param")
  | .node mark data children => do
    let handle ← handleOf mark
    notify (.evaluating data.called handle)
    let inner ← emit data (Tree.literals children) scope handle
    evaluateChildren data inner children

/-- Evaluates the children of a node in the scope that it left to them, if it takes children. -/
def evaluateChildren (parent : Node) (inner : Option NodeScope) (children : List (Tree Nat)) : Evaluating Unit :=
  match children with
  | [] => pure ()
  | child :: rest => do
    match child.root?, inner with
    | none, _ => if parent.kind = .param then pure () else Attempt.fail (.requires "Literal value" "Param")
    | some node, none => Attempt.fail (.cannotContain parent.called node.called)
    | some _, some scope => evaluate child scope
    evaluateChildren parent inner rest

end

end Evaluating

end SceneTree
