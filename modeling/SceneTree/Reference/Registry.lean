import SceneTree.Reference.Basic
import SceneTree.Roster.Access

/-!
# References over a changing list

A registry holds one list of candidates and any number of references over it, each under a key. Candidates come and go
while references are read, and the registry counts how often its list was searched.
-/

namespace SceneTree

/-- Candidates, references by key, and the number of searches. -/
structure Registry where
  candidates : Candidates
  references : List (String × Reference)
  reads : Nat
  deriving Repr, Inhabited

namespace Registry

/-- The registry without candidates and references. -/
def empty : Registry := ⟨[], [], 0⟩

/-- Puts a new reference under a key, in place of an earlier one. -/
def refer (r : Registry) (key kind : String) (name : Value) : Registry :=
  { r with references := (key, .ofName kind name) :: r.references }

/-- The reference under a key. -/
def get? (r : Registry) (key : String) : Option Reference := r.references.lookup key

/-- Adds a candidate at the end. -/
def add (r : Registry) (id name : Value) : Registry := { r with candidates := r.candidates ++ [(id, name)] }

/-- Removes the candidate at a position. -/
def remove (r : Registry) (i : Int) : Except Fault Registry := do
  return { r with candidates := ← Access.remove r.candidates i }

/-- Removes all candidates. -/
def clear (r : Registry) : Registry := { r with candidates := [] }

/-- A search of the list, which is counted. -/
def search : StateM Registry Candidates :=
  modifyGet fun r => (r.candidates, { r with reads := r.reads + 1 })

/-- Reads the reference under a key, which searches the list if it asks for candidates. -/
def resolve (r : Registry) (key : String) : Except Fault Value × Registry :=
  match r.get? key with
  | none => (.error .noField, r)
  | some reference =>
    let ((outcome, reference'), r) := reference.resolve search r
    (outcome, { r with references := (key, reference') :: r.references })

end Registry

end SceneTree
