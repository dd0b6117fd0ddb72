import SceneTree.Attempt
import SceneTree.Document.Entry
import SceneTree.JsonText.Writer
import SceneTree.Reference.Basic

/-!
# Encoding values

A value of a script is encoded as plain data: slots and tuples become lists, blocks of scripts become maps, and
lookups become the ids that they find. The encoding notes which lookups of parameters it read, in their order, because
these keep what they found; it notes them also when it fails further on.
-/

namespace SceneTree

/-- The parameters whose lookups were read, each with the id that was found. -/
abbrev Readings := List (Nat × Value)

/-- A lookup as it is read; one that a parameter made is noted. -/
def readLookup (origin : Origin) (kind : String) (name : Value) (candidates : Candidates) : Attempt Readings Value := do
  let id ← (candidates.resolve kind name : Except Fault Value)
  match origin with
  | .param index => Attempt.update (· ++ [(index, id)])
  | .given _ => pure ()
  pure id

namespace Value

mutual

/-- A value as plain data. -/
def encode : Value → Attempt Readings Value
  | .record .script
      [id, type, x, y, assemble, copyable, deletable, emphasized, movable, readOnly, extensions, params,
        statements] => do
    let params ← encode params
    let statements ← encode statements
    let extensions ← (extensions.items : Except Fault (List Value))
    pure (ScriptHead.layout
      ⟨id, type, x, y, assemble, copyable, deletable, emphasized, movable, readOnly, extensions⟩ params statements)
  | .slot items | .list items | .tuple items => do pure (.list (← encodeItems items))
  | .map entries => do pure (.map (← encodeEntries entries))
  | .lookup origin kind name candidates => readLookup origin kind name candidates
  | v => pure v

/-- The items of a collection as plain data. -/
def encodeItems : List Value → Attempt Readings (List Value)
  | [] => pure []
  | v :: rest => do
    let v ← encode v
    pure (v :: (← encodeItems rest))

/-- The entries of a map as plain data. -/
def encodeEntries : List (Value × Value) → Attempt Readings (List (Value × Value))
  | [] => pure []
  | (k, v) :: rest => do
    let v ← encode v
    pure ((k, v) :: (← encodeEntries rest))

end

/-- The text of a script: its encoding, written compactly. -/
def dump (blocks : Value) : Attempt Readings String := do
  let data ← encode blocks
  (JsonText.text .compact data : Except Fault String)

end Value

end SceneTree
