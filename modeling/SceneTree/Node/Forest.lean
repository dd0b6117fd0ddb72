import SceneTree.Attempt
import SceneTree.Node.Build

/-!
# Forests

Nodes under construction. A node of a forest is known by its number, and may be known by a label too. Its fields can be
assigned and its children replaced, and it may be the child of several nodes. A forest is read as the tree below one of
its nodes, with the numbers as marks.
-/

namespace SceneTree

/-- A child of a node of a forest. -/
inductive Child where
  | node (index : Nat)
  | literal (value : Value)

/-- The nodes of a forest with their children, and the labels, latest first. -/
structure Forest where
  nodes : Array (Node × List Child)
  labels : List (String × Nat)

/-- A description of a node to be built with its children, or of a child that is there already. -/
inductive NodeSpec where
  | node (kind : Kind) (label : Option String) (given : List (String × Value)) (children : List NodeSpec)
  | use (label : String)
  | literal (value : Value)
  deriving Inhabited

namespace Forest

/-- The forest without nodes. -/
def empty : Forest := ⟨#[], []⟩

instance : Inhabited Forest := ⟨empty⟩

/-- The node of a label. -/
def index? (forest : Forest) (label : String) : Option Nat := forest.labels.lookup label

/-- The forest with a new node. -/
def add (forest : Forest) (node : Node) (children : List Child) : Forest :=
  { forest with nodes := forest.nodes.push (node, children) }

/-- The forest with a value assigned to a field of a node. -/
def set (forest : Forest) (index : Nat) (field : Field) (v : Value) : Forest :=
  { forest with nodes := forest.nodes.modify index fun (node, children) => (node.set field v, children) }

/-- The forest with other children of a node. -/
def setChildren (forest : Forest) (index : Nat) (children : List Child) : Forest :=
  { forest with nodes := forest.nodes.modify index fun (node, _) => (node, children) }

/-- The values given by label for fields of a node. -/
def givenFields (given : List (String × Value)) : Except Fault (List (Field × Value)) :=
  given.mapM fun (label, v) =>
    match Field.ofLabel? label with
    | some field => .ok (field, v)
    | none => .error .wrongType

mutual

/-- Builds the child that a description asks for; the nodes that were built before a fault stay. -/
def grow : NodeSpec → Attempt Forest Child
  | .literal v => pure (.literal v)
  | .use label => do
    match (← Attempt.state).index? label with
    | some index => pure (.node index)
    | none => Attempt.fail .badIndex
  | .node kind label given children => do
    let children ← growAll children
    let node ← (do Node.build kind (← givenFields given) : Except Fault Node)
    let index := (← Attempt.state).nodes.size
    Attempt.update (·.add node children)
    match label with
    | some label => Attempt.update fun forest => { forest with labels := (label, index) :: forest.labels }
    | none => pure ()
    pure (.node index)

/-- Builds the children that some descriptions ask for. -/
def growAll : List NodeSpec → Attempt Forest (List Child)
  | [] => pure []
  | spec :: rest => do
    let child ← grow spec
    pure (child :: (← growAll rest))

end

/-- The tree below a child, down to a depth; none if it goes deeper. -/
def treeTo (forest : Forest) : (depth : Nat) → Child → Option (Tree Nat)
  | _, .literal v => some (.literal v)
  | 0, .node _ => none
  | depth + 1, .node index => do
    let (node, children) ← forest.nodes[index]?
    return .node index node (← children.mapM (forest.treeTo depth))

/-- The tree below a child. None of its branches is longer than there are nodes, unless a node is below itself. -/
def tree? (forest : Forest) (child : Child) : Option (Tree Nat) := forest.treeTo forest.nodes.size child

end Forest

end SceneTree
