import SceneTree.Fault

/-!
# Scopes

A scope says what the ancestors of a node have put at the disposal of the nodes below them: at each of seven places at
most one binding. Scopes do not change; a node passes a scope of its own on to its children.
-/

namespace SceneTree

/-- A place for a binding. -/
inductive Place where
  | root | project | sceneId | object | function | statements | params
  deriving DecidableEq, Repr

namespace Place

/-- The places in their order. -/
def all : List Place := [root, project, sceneId, object, function, statements, params]

/-- The label of a place. -/
def label : Place → String
  | .root => "root"
  | .project => "project"
  | .sceneId => "scene_id"
  | .object => "obj"
  | .function => "function"
  | .statements => "statements"
  | .params => "params"

/-- The place of a label. -/
def ofLabel? (label : String) : Option Place := all.find? fun place => place.label == label

end Place

/-- The bindings at the places, a binding at a place `p` being of type `τ p`. -/
structure Scope (τ : Place → Type) where
  get : (p : Place) → Option (τ p)

namespace Scope

variable {τ : Place → Type}

/-- The scope without bindings. -/
def empty : Scope τ := ⟨fun _ => none⟩

/-- The scope with a binding at a place, or without one there. -/
def bind (scope : Scope τ) (place : Place) (binding : Option (τ place)) : Scope τ :=
  ⟨fun p => if h : p = place then h ▸ binding else scope.get p⟩

/-- The binding at a place, which a node of a kind needs. -/
def require (scope : Scope τ) (kind : String) (place : Place) (requirement : String) : Except Fault (τ place) :=
  match scope.get place with
  | some binding => .ok binding
  | none => .error (.requires kind requirement)

/-- A binding cannot be changed in place. -/
def assign (_ : Scope τ) (place : Place) (_ : Option (τ place)) : Except Fault (Scope τ) := .error .frozen

@[simp] theorem get_empty (p : Place) : (empty : Scope τ).get p = none := rfl

@[simp] theorem get_bind_self (scope : Scope τ) (place : Place) (binding : Option (τ place)) :
    (scope.bind place binding).get place = binding := by
  simp [bind]

@[simp] theorem get_bind_of_ne (scope : Scope τ) {place p : Place} (binding : Option (τ place)) (h : p ≠ place) :
    (scope.bind place binding).get p = scope.get p := by
  simp [bind, h]

end Scope

/-- Scopes whose bindings are plain values. A null binding is none. -/
abbrev ValueScope := Scope fun _ => Value

namespace ValueScope

/-- A value as a binding. -/
def binding (v : Value) : Option Value := if v.isNull then none else some v

/-- The scope with some bindings by label; every label must be that of a place. -/
def bindAll (scope : ValueScope) (bindings : List (String × Value)) : Except Fault ValueScope :=
  bindings.foldlM (fun scope (label, v) =>
    match Place.ofLabel? label with
    | some place => .ok (scope.bind place (binding v))
    | none => .error .wrongType) scope

/-- The binding at the place of a label. -/
def requireLabel (scope : ValueScope) (kind label requirement : String) : Except Fault Value :=
  match Place.ofLabel? label with
  | some place => scope.require kind place requirement
  | none => .error .noField

/-- The bindings in the order of the places. -/
def toList (scope : ValueScope) : List (String × Value) :=
  Place.all.map fun place => (place.label, (scope.get place).getD .null)

end ValueScope

end SceneTree
