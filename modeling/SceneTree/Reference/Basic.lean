import SceneTree.Value.Collection

/-!
# References by name

A reference stands for the id of an entity that it names. It is resolved when it is first read: the first candidate of
that name gives the id, and the reference keeps it from then on. A reference that finds no candidate stays unresolved.
-/

namespace SceneTree

/-- What a reference may mean: entities in order, each by its id and its name. -/
abbrev Candidates := List (Value × Value)

/-- The id of the first candidate of a name. -/
def Candidates.firstNamed? (candidates : Candidates) (name : Value) : Option Value :=
  (candidates.find? fun (_, n) => n.equals name).map (·.1)

/-- The id of the first candidate of a name, which a reference of a kind needs. -/
def Candidates.resolve (candidates : Candidates) (kind : String) (name : Value) : Except Fault Value :=
  match candidates.firstNamed? name with
  | some id => .ok id
  | none => .error (.unresolved kind name)

/-- A value as it is read: a lookup stands for what it finds, every other value for itself. -/
def Value.resolve : Value → Except Fault Value
  | .lookup _ kind name candidates => Candidates.resolve candidates kind name
  | v => .ok v

/-- A reference, with the id that it found if it was resolved. -/
structure Reference where
  kind : String
  name : Value
  found : Option Value
  deriving Repr, Inhabited

namespace Reference

/-- A reference that was not read yet. -/
def ofName (kind : String) (name : Value) : Reference := ⟨kind, name, none⟩

/-- Reads a reference. The candidates are asked for only if it was not resolved before. -/
def resolve {m : Type → Type} [Monad m] (r : Reference) (ask : m Candidates) :
    m (Except Fault Value × Reference) := do
  match r.found with
  | some id => return (.ok id, r)
  | none =>
    match (← ask).resolve r.kind r.name with
    | .ok id => return (.ok id, { r with found := some id })
    | .error fault => return (.error fault, r)

/-- A reference as messages show it. -/
def toText (r : Reference) : String := Value.toText (.lookup (.given 0) r.kind r.name [])

end Reference

end SceneTree
