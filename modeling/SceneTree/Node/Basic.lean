import SceneTree.Node.Kind
import SceneTree.Value.Display

/-!
# Nodes and trees

A node has a kind and a value for each of its fields. A tree holds nodes and, among their children, plain values.
-/

namespace SceneTree

/-- A node without its children. A field that the kind does not have holds a value too, which nothing shows. -/
structure Node where
  kind : Kind
  get : Field → Value

namespace Node

/-- What messages call a node. -/
def called (node : Node) : String := (node.get .kindName).toText

/-- What messages call the thing that a parameter names. -/
def targetCalled (node : Node) : String := (node.get .targetName).toText

/-- The node with a value assigned to a field. -/
def set (node : Node) (field : Field) (v : Value) : Node :=
  { node with get := fun f => if f = field then v else node.get f }

/-- The node with a value assigned to a field that holds none. -/
def setDefault (node : Node) (field : Field) (v : Value) : Node :=
  if (node.get field).isNull then node.set field v else node

@[simp] theorem kind_set (node : Node) (field : Field) (v : Value) : (node.set field v).kind = node.kind := rfl

@[simp] theorem get_set_self (node : Node) (field : Field) (v : Value) : (node.set field v).get field = v := by
  simp [set]

@[simp] theorem get_set_of_ne (node : Node) {field f : Field} (v : Value) (h : f ≠ field) :
    (node.set field v).get f = node.get f := by
  simp [set, h]

/-- The fields of a node in the order of its kind, each with its value. -/
def attributes (node : Node) : List (Field × Value) :=
  node.kind.fields.map fun (field, _) => (field, node.get field)

end Node

/-- A tree of nodes, each with a mark of type `ι` that says which node it is: a node that stands in several places of a
tree has one mark in all of them. -/
inductive Tree (ι : Type) where
  | node (mark : ι) (data : Node) (children : List (Tree ι))
  | literal (value : Value)

namespace Tree

mutual

/-- Marks the nodes of a tree with numbers from `next` on, parents before children; also returns the next number. -/
def numbered (next : Nat) : Tree Unit → Tree Nat × Nat
  | .node _ data children =>
    let (children, after) := allNumbered (next + 1) children
    (.node next data children, after)
  | .literal v => (.literal v, next)

/-- Marks the nodes of several trees with numbers from `next` on; also returns the next number. -/
def allNumbered (next : Nat) : List (Tree Unit) → List (Tree Nat) × Nat
  | [] => ([], next)
  | t :: rest =>
    let (t, after) := numbered next t
    let (rest, after) := allNumbered after rest
    (t :: rest, after)

end

end Tree

end SceneTree
