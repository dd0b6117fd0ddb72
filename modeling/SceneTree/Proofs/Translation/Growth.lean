import SceneTree.Proofs.Cells
import SceneTree.Proofs.Translation.Effect

/-!
# How a document grows

While nodes are evaluated for the first time, every handle is new. So a contribution goes to the end of its roster,
cells are added and keep what identifies them, and a scope goes on to name cells that are there. Nothing is in the
document before the project has filled it.
-/

namespace SceneTree

namespace Roster

variable {α : Type} {r : Roster Handle α} {n : Nat}

/-- All handles in a roster are below a number. -/
def Below (r : Roster Handle α) (n : Nat) : Prop := ∀ p ∈ r.entries, p.1 < n

theorem Below.empty (n : Nat) : (Roster.empty : Roster Handle α).Below n := by
  intro p hp
  cases hp

theorem Below.mono (h : r.Below n) : r.Below (n + 1) := fun p hp => Nat.lt_succ_of_lt (h p hp)

/-- What the next handle contributes goes to the end. -/
theorem Below.entries_insert (h : r.Below n) (a : α) : (r.insert n a).entries = r.entries ++ [(n, a)] :=
  r.insert_of_not_mem n a fun p hp => by
    rw [beq_eq_false_iff_ne]
    exact Nat.ne_of_lt (h p hp)

/-- What the next handle contributes is the last value. -/
theorem Below.values_insert (h : r.Below n) (a : α) : (r.insert n a).values = r.values ++ [a] := by
  rw [values_eq, h.entries_insert, List.map_append, ← values_eq]
  rfl

theorem Below.insert (h : r.Below n) (a : α) : (r.insert n a).Below (n + 1) := by
  intro p hp
  rw [h.entries_insert] at hp
  rcases List.mem_append.mp hp with hp | hp
  · exact h.mono p hp
  · rw [List.mem_singleton.mp hp]
    exact Nat.lt_succ_self n

end Roster

/-- An object without what its pictures and sounds have contributed. -/
def ObjectEntry.frame (object : ObjectEntry) : ObjectEntry :=
  { object with selectedPicture := .null, pictures := .empty, sounds := .empty }

/-- A function without what its local variables have contributed. -/
def FunctionEntry.frame (function : FunctionEntry) : FunctionEntry := { function with locals := .empty }

namespace Document

variable {doc doc' doc'' : Document} {n : Nat}

/-- All handles in a document are below a number. -/
structure Below (doc : Document) (n : Nat) : Prop where
  scenes : doc.scenes.Below n
  objects : doc.objects.Below n
  globals : doc.globals.Below n
  messages : doc.messages.Below n
  functions : doc.functions.Below n
  tables : doc.tables.Below n
  populatedBy : ∀ handle ∈ doc.populatedBy, handle < n
  objectCells : doc.objectCells.All fun object => object.pictures.Below n ∧ object.sounds.Below n
  functionCells : doc.functionCells.All fun function => function.locals.Below n
  parts : doc.parts.All fun items => items.Below n

theorem Below.empty (n : Nat) : Document.empty.Below n where
  scenes := .empty n
  objects := .empty n
  globals := .empty n
  messages := .empty n
  functions := .empty n
  tables := .empty n
  populatedBy := by
    intro handle h
    cases h
  objectCells := .empty _
  functionCells := .empty _
  parts := .empty _

theorem Below.mono (h : doc.Below n) : doc.Below (n + 1) where
  scenes := h.scenes.mono
  objects := h.objects.mono
  globals := h.globals.mono
  messages := h.messages.mono
  functions := h.functions.mono
  tables := h.tables.mono
  populatedBy := fun handle hh => Nat.lt_succ_of_lt (h.populatedBy handle hh)
  objectCells := h.objectCells.imp fun _ ho => ⟨ho.1.mono, ho.2.mono⟩
  functionCells := h.functionCells.imp fun _ hf => hf.mono
  parts := h.parts.imp fun _ hp => hp.mono

theorem Below.addPlace (h : doc.Below n) : doc.addPlace.Below n :=
  { h with parts := h.parts.add (.empty n) }

theorem Below.putItem (h : doc.Below n) (place : Nat) (item : Item) : (doc.putItem place n item).Below (n + 1) :=
  { h.mono with parts := h.parts.modify place (fun _ hr => hr.mono) fun _ hr => hr.insert item }

theorem Below.addReference (h : doc.Below n) (target : Target) (reference : Reference) :
    (doc.addReference target reference).Below n :=
  ⟨h.scenes, h.objects, h.globals, h.messages, h.functions, h.tables, h.populatedBy, h.objectCells, h.functionCells,
    h.parts⟩

theorem Below.changeObject (h : doc.Below n) (index : Nat) {f : ObjectEntry → ObjectEntry}
    (hf : ∀ object, object.pictures.Below n ∧ object.sounds.Below n →
      (f object).pictures.Below (n + 1) ∧ (f object).sounds.Below (n + 1)) :
    (doc.changeObject index f).Below (n + 1) :=
  { h.mono with objectCells := h.objectCells.modify index (fun _ ho => ⟨ho.1.mono, ho.2.mono⟩) hf }

theorem Below.changeFunction (h : doc.Below n) (index : Nat) {f : FunctionEntry → FunctionEntry}
    (hf : ∀ function, function.locals.Below n → (f function).locals.Below (n + 1)) :
    (doc.changeFunction index f).Below (n + 1) :=
  { h.mono with functionCells := h.functionCells.modify index (fun _ hl => hl.mono) hf }

/-- What is in a document is in a later one, objects and functions as they were before their parts contributed. -/
structure Later (doc doc' : Document) : Prop where
  objects : doc.objectCells.Later ObjectEntry.frame doc'.objectCells
  functions : doc.functionCells.Later FunctionEntry.frame doc'.functionCells
  parts : doc.parts.Later (fun _ => ()) doc'.parts
  references : doc.references.Later id doc'.references
  populatedBy : doc.populatedBy <+: doc'.populatedBy

theorem Later.refl (doc : Document) : doc.Later doc :=
  ⟨.refl _ _, .refl _ _, .refl _ _, .refl _ _, List.prefix_refl _⟩

theorem Later.trans (h : doc.Later doc') (h' : doc'.Later doc'') : doc.Later doc'' :=
  ⟨h.objects.trans h'.objects, h.functions.trans h'.functions, h.parts.trans h'.parts,
    h.references.trans h'.references, h.populatedBy.trans h'.populatedBy⟩

theorem Later.addPlace (doc : Document) : doc.Later doc.addPlace :=
  { Later.refl doc with parts := .add _ _ _ }

theorem Later.putItem (doc : Document) (place : Nat) (handle : Handle) (item : Item) :
    doc.Later (doc.putItem place handle item) :=
  { Later.refl doc with parts := .modify _ place fun _ => rfl }

theorem Later.changeObject (doc : Document) (index : Nat) {f : ObjectEntry → ObjectEntry}
    (hf : ∀ object, (f object).frame = object.frame) :
    doc.Later (doc.changeObject index f) :=
  { Later.refl doc with objects := .modify _ index hf }

theorem Later.changeFunction (doc : Document) (index : Nat) {f : FunctionEntry → FunctionEntry}
    (hf : ∀ function, (f function).frame = function.frame) : doc.Later (doc.changeFunction index f) :=
  { Later.refl doc with functions := .modify _ index hf }

theorem Later.populate (doc : Document) (head : ProjectHead) (handle : Handle) : doc.Later (doc.populate head handle) :=
  { Later.refl doc with
    populatedBy := by
      unfold Document.populate
      simp only
      split
      · exact List.prefix_refl _
      · exact List.prefix_append _ _ }

end Document

/-- An effect leaves a later document. -/
theorem Effect.later {scope : NodeScope} {n : Handle} {doc doc' : Document} {b : Branch} {inner : Option NodeScope}
    (h : Effect scope n doc b inner doc') : doc.Later doc' := by
  cases h with
  | fragment => exact .refl doc
  | project => exact .populate doc _ n
  | scene => exact { Document.Later.refl doc with }
  | object => exact (Document.Later.addPlace doc).trans { Document.Later.refl _ with objects := .add _ _ _ }
  | picture => exact .changeObject doc _ fun _ => rfl
  | sound => exact .changeObject doc _ fun _ => rfl
  | global => exact { Document.Later.refl doc with }
  | message => exact { Document.Later.refl doc with }
  | function => exact (Document.Later.addPlace doc).trans { Document.Later.refl _ with functions := .add _ _ _ }
  | localVariable => exact .changeFunction doc _ fun _ => rfl
  | table => exact { Document.Later.refl doc with }
  | statement => exact (Document.Later.addPlace doc).trans (.putItem _ _ n _)
  | script => exact ((Document.Later.addPlace doc).trans (.addPlace _)).trans (.putItem _ _ n _)
  | param => exact .putItem doc _ n _
  | named =>
    refine Document.Later.trans ?_ (.putItem _ _ n _)
    exact { Document.Later.refl doc with references := .add _ _ _ }

end SceneTree
