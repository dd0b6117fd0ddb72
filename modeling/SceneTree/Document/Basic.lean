import SceneTree.Document.Cells
import SceneTree.Document.Encoding
import SceneTree.Roster.Basic

/-!
# Documents

A project document while it is being filled. Scenes, objects and so on stand in rosters, under the handles of the nodes
that contributed them. Objects, functions, the places that collect the parts of scripts, and the references in scripts
change after they were put somewhere and are cells.
-/

namespace SceneTree

/-- The number by which a node is known to the document. -/
abbrev Handle := Nat

/-- What a collecting place of a script holds: a value, a block of statements, a script with its parameters and
statements, or a reference. All but a value are cells. -/
inductive Item where
  | value (v : Value)
  | block (parts : Nat)
  | script (head : ScriptHead) (params statements : Nat)
  | reference (index : Nat)
  deriving Repr

/-- Where a reference looks for its name. -/
inductive Target where
  | globals
  | objects
  | pictures (object : Nat)
  | sounds (object : Nat)
  deriving DecidableEq, Repr

/-- An object with its looks, pictures and sounds, and the place that collects its scripts. -/
structure ObjectEntry extends ObjectHead where
  entity : Entity
  pictures : Roster Handle PictureEntry
  sounds : Roster Handle SoundEntry
  blocks : Nat
  deriving Repr

/-- A function with its local variables and the place that collects its content. -/
structure FunctionEntry extends FunctionHead where
  locals : Roster Handle LocalVariableEntry
  content : Nat
  deriving Repr

/-- A document. Its rosters of objects and functions name cells; a cell that no roster names any more may still be bound
in a scope or be where a reference looks. -/
structure Document where
  head : ProjectHead
  scenes : Roster Handle SceneEntry
  objects : Roster Handle Nat
  globals : Roster Handle VariableEntry
  messages : Roster Handle MessageEntry
  functions : Roster Handle Nat
  tables : Roster Handle (List (Value × Value))
  populatedBy : List Handle
  objectCells : Cells ObjectEntry
  functionCells : Cells FunctionEntry
  parts : Cells (Roster Handle Item)
  references : Cells (Target × Reference)
  deriving Repr

namespace Document

/-- The document that nothing fills. -/
def empty : Document :=
  ⟨⟨.null, .int 60, [], [], [], [], [], []⟩, .empty, .empty, .empty, .empty, .empty, .empty, [], .empty, .empty, .empty,
    .empty⟩

instance : Inhabited Document := ⟨empty⟩

/-- The objects in order. -/
def objectEntries (doc : Document) : List ObjectEntry := doc.objects.values.filterMap doc.objectCells.get?

/-- The functions in order. -/
def functionEntries (doc : Document) : List FunctionEntry := doc.functions.values.filterMap doc.functionCells.get?

/-- What a reference with a target may mean at present. -/
def candidates (doc : Document) : Target → Candidates
  | .globals => doc.globals.values.map fun e => (e.id, e.name)
  | .objects => doc.objectEntries.map fun e => (e.id, e.name)
  | .pictures object => ((doc.objectCells.get? object).map fun o =>
      o.pictures.values.map fun e => (e.id, e.name)).getD []
  | .sounds object => ((doc.objectCells.get? object).map fun o =>
      o.sounds.values.map fun e => (e.id, e.name)).getD []

/-- A reference as a value: a lookup among what it may mean, or in what it found. -/
def referenceValue (doc : Document) (index : Nat) : Value :=
  match doc.references.get? index with
  | some (target, r) =>
    .lookup (.param index) r.kind r.name (match r.found with
      | some id => [(id, r.name)]
      | none => doc.candidates target)
  | none => .null

/-- An item as a value, given what the collecting places hold. -/
def itemValue (doc : Document) (held : Nat → List Value) : Item → Value
  | .value v => v
  | .block parts => .slot (held parts)
  | .script head params statements => head.toRecord (.slot (held params)) (.slot (held statements))
  | .reference index => doc.referenceValue index

/-- What a collecting place holds, as values, down to a depth. A place holds only such places as were created after it,
so that there is no need to go deeper than there are places. -/
def partValues (doc : Document) : (depth : Nat) → (place : Nat) → List Value
  | 0, _ => []
  | depth + 1, place =>
    ((doc.parts.get? place).map Roster.values).getD [] |>.map (doc.itemValue (doc.partValues depth))

/-- What a collecting place holds, as a value. -/
def slotValue (doc : Document) (place : Nat) : Value := .slot (doc.partValues doc.parts.size place)

/-- The script of an object. -/
def script (doc : Document) (object : ObjectEntry) : Attempt Readings String := (doc.slotValue object.blocks).dump

/-- The content of a function. -/
def content (doc : Document) (function : FunctionEntry) : Attempt Readings String :=
  (doc.slotValue function.content).dump

/-- The layout of an object. -/
def objectLayout (doc : Document) (object : ObjectEntry) : Attempt Readings Value := do
  let script ← doc.script object
  pure (object.toObjectHead.layout script (object.pictures.values.map PictureEntry.layout)
    (object.sounds.values.map SoundEntry.layout) object.entity.layout)

/-- The layout of a function. Local variables are shown if there are any, or if the function says that it uses them. -/
def functionLayout (doc : Document) (function : FunctionEntry) : Attempt Readings Value := do
  let locals := function.locals.values.map LocalVariableEntry.layout
  let shown := function.useLocalVariables.truthy || !locals.isEmpty
  let content ← doc.content function
  pure (function.toFunctionHead.layout (if shown then some locals else none) content)

/-- The layouts of several things, one after the other. -/
def layoutEach {α : Type} (layout : α → Attempt Readings Value) : List α → Attempt Readings (List Value)
  | [] => pure []
  | a :: rest => do
    let v ← layout a
    pure (v :: (← layoutEach layout rest))

/-- The layout of a document. -/
def layout (doc : Document) : Attempt Readings Value := do
  let objects ← layoutEach doc.objectLayout doc.objectEntries
  let functions ← layoutEach doc.functionLayout doc.functionEntries
  let tables ← layoutEach (fun table => Value.encode (.map table)) doc.tables.values
  pure (doc.head.layout (doc.scenes.values.map SceneEntry.layout) objects
    (doc.globals.values.map VariableEntry.layout) (doc.messages.values.map MessageEntry.layout) functions tables)

/-- A document in which the references that were read keep what they found. -/
def keep (doc : Document) (readings : Readings) : Document :=
  { doc with references := readings.foldl (fun references (index, id) =>
      references.modify index fun (target, r) => (target, { r with found := some id })) doc.references }

/-- Does something that reads references: what these found stays, also when it fails. -/
def reading {α : Type} (x : Document → Attempt Readings α) : Attempt Document α := fun doc =>
  let (outcome, readings) := x doc []
  (outcome, doc.keep readings)

/-- The text of a document. -/
def text (layout : JsonText.Layout) : Attempt Document String :=
  reading fun doc => do
    let data ← doc.layout
    (JsonText.text layout data : Except Fault String)

/-- Every picture that an object selects is one of its own. -/
def checkSelectedPictures (doc : Document) : Except Fault Unit :=
  doc.objectEntries.forM fun object =>
    if object.selectedPicture.isNull ||
        object.pictures.values.any fun picture => picture.id.equals object.selectedPicture then .ok ()
    else .error (.foreignPicture object.name object.selectedPicture)

end Document

end SceneTree
