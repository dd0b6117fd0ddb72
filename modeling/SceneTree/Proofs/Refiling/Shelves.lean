import SceneTree.Proofs.Evaluation.Agenda
import SceneTree.Proofs.Repetition.Behind
import SceneTree.Proofs.Roster.Latest

/-!
# The shelves of a document

A document files scenes, objects, variables, messages, functions and tables, each on a shelf of their own. A node that
contributes is filed anew on the shelf of its kind, and nothing else on the shelves changes, unless it is a project.
-/

namespace SceneTree

/-- The shelves of a document. -/
inductive Shelf where
  | scenes | objects | globals | messages | functions | tables
  deriving DecidableEq, Repr

/-- What stands on a shelf. Objects and functions are known by the numbers of their cells. -/
inductive Filing where
  | scene (entry : SceneEntry)
  | object (index : Nat)
  | global (entry : VariableEntry)
  | message (entry : MessageEntry)
  | function (index : Nat)
  | table (data : Entries)

/-- The shelf on which the nodes of a kind are filed. -/
def Kind.shelf? : Kind → Option Shelf
  | .scene => some .scenes
  | .object | .sprite | .textBox => some .objects
  | .variable => some .globals
  | .message => some .messages
  | .function => some .functions
  | .table => some .tables
  | _ => none

/-- Objects are filed as objects. -/
theorem Kind.shelf?_of_isObject {kind : Kind} (h : kind.isObject = true) : kind.shelf? = some .objects := by
  cases kind <;> first | rfl | cases h

/-- Named parameters are not filed. -/
theorem Kind.shelf?_of_isNamedParam {kind : Kind} (h : kind.isNamedParam = true) : kind.shelf? = none := by
  cases kind <;> first | rfl | cases h

namespace Document

/-- A shelf of a document. -/
def shelf (doc : Document) : Shelf → Roster Handle Filing
  | .scenes => doc.scenes.map .scene
  | .objects => doc.objects.map .object
  | .globals => doc.globals.map .global
  | .messages => doc.messages.map .message
  | .functions => doc.functions.map .function
  | .tables => doc.tables.map .table

/-- The cell of what is filed is there. -/
def Holds (doc : Document) : Filing → Prop
  | .object index => index < doc.objectCells.size
  | .function index => index < doc.functionCells.size
  | _ => True

/-- What is filed is what a node with an id says. It is left open on which scene an object is and to which object a
variable belongs, and what the parts of an object or a function have contributed to it. -/
def Carries (doc : Document) (node : Node) (id : Value) : Filing → Prop
  | .scene entry => entry = node.sceneEntry id
  | .object index => ∃ object scene blocks, doc.objectCells.get? index = some object ∧
      object.frame = node.objectEntry id scene blocks
  | .global entry => ∃ owner, entry = node.variableEntry id owner
  | .message entry => entry = node.messageEntry id
  | .function index => ∃ function content, doc.functionCells.get? index = some function ∧
      function.frame = node.functionEntry id content
  | .table data => data = (node.get .data).entryList

variable {doc doc' : Document} {node : Node} {id : Value} {filing : Filing}

/-- What is there is there later. -/
theorem Holds.later (h : doc.Holds filing) (hl : doc.Later doc') : doc'.Holds filing := by
  cases filing with
  | object index => exact Nat.lt_of_lt_of_le h hl.objects.size_le
  | function index => exact Nat.lt_of_lt_of_le h hl.functions.size_le
  | _ => trivial

/-- What is filed of a node stays as the node says. -/
theorem Carries.later (h : doc.Carries node id filing) (hl : doc.Later doc') : doc'.Carries node id filing := by
  cases filing with
  | object index =>
    obtain ⟨object, scene, blocks, ho, hframe⟩ := h
    obtain ⟨object', ho', hsame⟩ := hl.objects index object ho
    exact ⟨object', scene, blocks, ho', hsame.trans hframe⟩
  | function index =>
    obtain ⟨function, content, hf, hframe⟩ := h
    obtain ⟨function', hf', hsame⟩ := hl.functions index function hf
    exact ⟨function', content, hf', hsame.trans hframe⟩
  | _ => exact h

theorem shelf_populate (doc : Document) (head : ProjectHead) (handle : Handle) (s : Shelf) :
    (doc.populate head handle).shelf s = .empty := by
  cases s <;> rfl

end Document

section

variable {scope : NodeScope} {n : Handle} {doc doc' : Document} {b : Branch} {out : Option NodeScope} {s : Shelf}

/-- A contribution leaves all shelves but that of the node's kind alone, unless the node is a project. -/
theorem Effect.shelf_of_ne (h : Effect scope n doc b out doc') (hp : b.kind ≠ .project) (hs : b.kind.shelf? ≠ some s) :
    doc'.shelf s = doc.shelf s := by
  cases h with
  | project hk => exact absurd hk hp
  | scene hk | global hk | message hk | function hk | table hk =>
    rw [hk] at hs
    cases s <;> first | rfl | exact absurd rfl hs
  | object hk =>
    rw [Kind.shelf?_of_isObject hk] at hs
    cases s <;> first | rfl | exact absurd rfl hs
  | _ => cases s <;> rfl

/-- A contribution is filed on the shelf of the node's kind, as the node says. -/
theorem Effect.shelf_of_eq (h : Effect scope n doc b out doc') (hs : b.kind.shelf? = some s) :
    ∃ filing, doc'.shelf s = (doc.shelf s).insert n filing ∧ doc'.Holds filing ∧ doc'.Carries b.node b.id filing := by
  cases h with
  | scene hk =>
    rw [hk] at hs
    cases hs
    exact ⟨.scene _, (Roster.insert_map _ _ _ _).symm, trivial, rfl⟩
  | @object hk hp scene hscene =>
    rw [Kind.shelf?_of_isObject hk] at hs
    cases hs
    refine ⟨.object doc.objectCells.size, (Roster.insert_map _ _ _ _).symm, ?_, ?_⟩
    · show doc.objectCells.size < (doc.objectCells.add _).size
      rw [Cells.size_add]
      exact Nat.lt_succ_self _
    · exact ⟨_, scene, doc.parts.size, Cells.get?_add_self _ _, rfl⟩
  | global hk =>
    rw [hk] at hs
    cases hs
    exact ⟨.global _, (Roster.insert_map _ _ _ _).symm, trivial, _, rfl⟩
  | message hk =>
    rw [hk] at hs
    cases hs
    exact ⟨.message _, (Roster.insert_map _ _ _ _).symm, trivial, rfl⟩
  | function hk =>
    rw [hk] at hs
    cases hs
    refine ⟨.function doc.functionCells.size, (Roster.insert_map _ _ _ _).symm, ?_, ?_⟩
    · show doc.functionCells.size < (doc.functionCells.add _).size
      rw [Cells.size_add]
      exact Nat.lt_succ_self _
    · exact ⟨_, doc.parts.size, Cells.get?_add_self _ _, rfl⟩
  | table hk =>
    rw [hk] at hs
    cases hs
    exact ⟨.table _, (Roster.insert_map _ _ _ _).symm, trivial, rfl⟩
  | named hk =>
    rw [Kind.shelf?_of_isNamedParam hk] at hs
    cases hs
  | _ hk =>
    rw [show b.kind = _ from hk] at hs
    cases hs

/-- The shelves after a contribution: the one of the node's kind with a new entry, and the others as they were; a
project empties all of them. -/
theorem Effect.shelf (h : Effect scope n doc b out doc') (s : Shelf) :
    doc'.shelf s = .empty ∨ doc'.shelf s = doc.shelf s ∨
      b.kind.shelf? = some s ∧ ∃ filing, doc'.shelf s = (doc.shelf s).insert n filing ∧ doc'.Holds filing := by
  by_cases hp : b.kind = .project
  · rw [(h.of_project hp).2, Document.shelf_populate]
    exact .inl rfl
  · by_cases hs : b.kind.shelf? = some s
    · obtain ⟨filing, hshelf, hholds, -⟩ := h.shelf_of_eq hs
      exact .inr (.inr ⟨hs, filing, hshelf, hholds⟩)
    · exact .inr (.inl (h.shelf_of_ne hp hs))

end

namespace Evaluating

section

variable {node : Node} {literals : List Value} {scope : NodeScope} {handle : Handle} {doc doc' : Document}
  {fault : Fault}

/-- What cannot be delivered changes nothing. -/
theorem of_deliver_eq_error {collector : Option Collector} {item : Item} {inner : Option NodeScope}
    (h : deliver collector handle item inner doc = (.error fault, doc')) : doc' = doc := by
  unfold deliver at h
  split at h
  · cases h
  · cases h
    rfl

/-- A contribution that fails leaves the shelves alone, and nothing goes away. -/
theorem shelf_of_contribute_eq_error {id : Value}
    (h : contribute node literals scope handle id doc = (.error fault, doc')) :
    (∀ s, doc'.shelf s = doc.shelf s) ∧ doc.Later doc' := by
  have hplace (doc : Document) : (∀ s, doc.addPlace.shelf s = doc.shelf s) ∧ doc.Later doc.addPlace :=
    ⟨fun s => by cases s <;> rfl, .addPlace doc⟩
  cases hk : node.kind
  case statement =>
    simp only [contribute, hk] at h
    rw [of_deliver_eq_error h]
    exact hplace doc
  case script =>
    simp only [contribute, hk] at h
    split at h
    · rw [of_deliver_eq_error h]
      exact ⟨fun s => ((hplace doc.addPlace).1 s).trans ((hplace doc).1 s), (hplace doc).2.trans (hplace _).2⟩
    · cases h
      exact ⟨fun _ => rfl, .refl doc⟩
  case param =>
    simp only [contribute, hk] at h
    rw [of_deliver_eq_error h]
    exact ⟨fun _ => rfl, .refl doc⟩
  case picture | sound | localVariable =>
    simp only [contribute, hk] at h
    split at h
    · cases h
    · cases h
      exact ⟨fun _ => rfl, .refl doc⟩
  case node | namedParam | variableParam | objectParam | pictureParam | soundParam =>
    simp only [contribute, hk] at h
    split at h
    · rw [of_deliver_eq_error h]
      exact ⟨fun s => by cases s <;> rfl, { Document.Later.refl doc with references := .add _ _ _ }⟩
    · cases h
      exact ⟨fun _ => rfl, .refl doc⟩
  all_goals
    simp only [contribute, hk] at h
    cases h

end

end Evaluating

/-- The handles on the shelves are those of nodes that were met, each on the shelf of the kind of its node and there
once, and the cells of what is filed are there. -/
structure Shelved (kinds : Nat → Kind) (met : List Nat) (doc : Document) : Prop where
  distinct : met.Nodup
  tokens : ∀ s, (doc.shelf s).tokens.Nodup
  kind : ∀ s, ∀ p ∈ (doc.shelf s).entries, ∃ mark, met[p.1]? = some mark ∧ (kinds mark).shelf? = some s
  holds : ∀ s, ∀ p ∈ (doc.shelf s).entries, doc.Holds p.2

namespace Shelved

variable {kinds : Nat → Kind} {met met' : List Nat} {doc doc' : Document}

/-- Nothing is filed at the beginning. -/
theorem start (kinds : Nat → Kind) : Shelved kinds [] .empty where
  distinct := List.nodup_nil
  tokens := by
    intro s
    cases s <;> exact List.nodup_nil
  kind := by
    intro s p hp
    cases s <;> cases hp
  holds := by
    intro s p hp
    cases s <;> cases hp

/-- More nodes are met. -/
theorem of_prefix (h : Shelved kinds met doc) (hm : met <+: met') (hn : met'.Nodup) : Shelved kinds met' doc where
  distinct := hn
  tokens := h.tokens
  kind := by
    intro s p hp
    obtain ⟨mark, hmark, hk⟩ := h.kind s p hp
    obtain ⟨rest, rfl⟩ := hm
    exact ⟨mark, (List.getElem?_append_left (List.getElem?_eq_some_iff.mp hmark).1).trans hmark, hk⟩
  holds := h.holds

/-- The shelves stay as they are. -/
theorem of_shelf_eq (h : Shelved kinds met doc) (hs : ∀ s, doc'.shelf s = doc.shelf s)
    (hh : ∀ filing, doc.Holds filing → doc'.Holds filing) : Shelved kinds met doc' where
  distinct := h.distinct
  tokens := fun s => hs s ▸ h.tokens s
  kind := fun s => hs s ▸ h.kind s
  holds := fun s p hp => hh p.2 (h.holds s p (hs s ▸ hp))

/-- A node that was met contributes. -/
theorem effect {scope : NodeScope} {n mark : Nat} {b : Branch} {out : Option NodeScope} (h : Shelved kinds met doc)
    (he : Effect scope n doc b out doc') (hn : met[n]? = some mark) (hk : b.kind = kinds mark) :
    Shelved kinds met doc' := by
  have hentries : ∀ s, ∀ p ∈ (doc'.shelf s).entries,
      p ∈ (doc.shelf s).entries ∨ p.1 = n ∧ b.kind.shelf? = some s ∧ doc'.Holds p.2 := by
    intro s p hp
    rcases he.shelf s with hs | hs | ⟨hks, filing, hs, hholds⟩
    · rw [hs] at hp
      cases hp
    · exact .inl (hs ▸ hp)
    · rw [hs, Roster.entries_insert_of_nodup (h.tokens s), List.mem_append, List.mem_singleton] at hp
      rcases hp with hp | rfl
      · exact .inl (List.mem_filter.mp hp).1
      · exact .inr ⟨rfl, hks, hholds⟩
  refine ⟨h.distinct, fun s => ?_, fun s p hp => ?_, fun s p hp => ?_⟩
  · rcases he.shelf s with hs | hs | ⟨-, filing, hs, -⟩
    · rw [hs]
      exact List.nodup_nil
    · exact hs ▸ h.tokens s
    · rw [hs]
      exact Roster.nodup_tokens_insert (h.tokens s) n filing
  · rcases hentries s p hp with hp | ⟨hpn, hks, -⟩
    · exact h.kind s p hp
    · exact ⟨mark, hpn ▸ hn, hk ▸ hks⟩
  · rcases hentries s p hp with hp | ⟨-, -, hholds⟩
    · exact (h.holds s p hp).later he.later
    · exact hholds

end Shelved

namespace Evaluation

variable {e : Evaluation}

/-- No node is met twice. -/
theorem nodup_met_enter (h : e.met.Nodup) (mark : Nat) (node : Node) : (e.enter mark node).met.Nodup := by
  cases hm : e.handle? mark with
  | some _ => rwa [met_enter_of_handle? hm]
  | none =>
    rw [met_enter_of_not_mem hm]
    have hn : mark ∉ e.met := List.idxOf?_eq_none_iff.mp hm
    refine List.nodup_append.mpr ⟨h, List.pairwise_singleton _ _, fun m hmem m' hmem' heq => hn ?_⟩
    rwa [← List.mem_singleton.mp hmem', ← heq]

/-- The node that is reached has its handle. -/
theorem getElem?_met_enter (h : e.met.Nodup) (mark : Nat) (node : Node) :
    (e.enter mark node).met[e.handleFor mark]? = some mark := by
  unfold handleFor
  cases hm : e.handle? mark with
  | none =>
    rw [met_enter_of_not_mem hm, Option.getD_none, List.getElem?_append_right (Nat.le_refl _), Nat.sub_self]
    rfl
  | some handle =>
    rw [met_enter_of_handle? hm]
    exact (handle?_eq_some_iff h).mp hm

end Evaluation

namespace Evaluating

variable {kinds : Nat → Kind} {e : Evaluation}

/-- The shelves are in order after a visit, whether it succeeds or not. -/
theorem shelved_visit {mark : Nat} {node : Node} (h : Shelved kinds e.met e.document) (hk : node.kind = kinds mark)
    (literals : List Value) (scope : NodeScope) :
    Shelved kinds (visit mark node literals scope e).2.met (visit mark node literals scope e).2.document := by
  have henter : Shelved kinds (e.enter mark node).met (e.enter mark node).document :=
    h.of_prefix (e.met_enter mark node) (e.nodup_met_enter h.distinct mark node)
  have hhandle := e.getElem?_met_enter h.distinct mark node
  rw [visit_apply, staged_apply]
  cases ha : admission node literals scope (e.enter mark node).document with
  | error _ => exact henter
  | ok _ =>
    have hmet := met_request node (e.handleFor mark) (e.enter mark node)
    have hdoc := document_request node (e.handleFor mark) (e.enter mark node)
    rcases hr : request node (e.handleFor mark) (e.enter mark node) with ⟨fault | id, e'⟩
    · rw [hr] at hmet hdoc
      simp only at hmet hdoc ⊢
      rw [hmet, hdoc]
      exact henter
    · rw [hr] at hmet hdoc
      simp only at hmet hdoc ⊢
      rw [hmet, hdoc]
      rcases hc : contribute node literals scope (e.handleFor mark) id (e.enter mark node).document with
        ⟨fault | out, doc'⟩
      · obtain ⟨hs, hl⟩ := shelf_of_contribute_eq_error hc
        exact henter.of_shelf_eq hs fun _ hf => hf.later hl
      · have heffect : Effect scope (e.handleFor mark) (e.enter mark node).document
            ⟨id, node, literals.map .literal⟩ out doc' := by
          refine .of_contribute ?_ ?_
          · rwa [Tree.literals_map_literal]
          · rwa [Tree.literals_map_literal]
        exact henter.effect heffect hhandle hk

/-- The states that an evaluator can be in: trees have been evaluated in scopes, with success or without, references in
its document have been read, and others have drawn ids from its supply. The nodes may have changed between the
evaluations, but not their kinds. -/
inductive Reached (kinds : Nat → Kind) : Evaluation → Prop where
  | start (supply : IdSupply) : Reached kinds (.start supply)
  | evaluate {e : Evaluation} (tree : Tree Nat) (scope : NodeScope) (h : Reached kinds e)
      (hk : ∀ n ∈ tree.nodes, n.2.kind = kinds n.1) : Reached kinds (evaluate tree scope e).2
  | read {e : Evaluation} (readings : Readings) (h : Reached kinds e) :
      Reached kinds { e with document := e.document.keep readings }
  | draw {e : Evaluation} (supply : IdSupply) (h : Reached kinds e) : Reached kinds { e with supply := supply }

/-- The shelves are in order in every state that an evaluator can be in. -/
theorem Reached.shelved (h : Reached kinds e) : Shelved kinds e.met e.document := by
  induction h with
  | start supply => exact .start kinds
  | evaluate tree scope _ hk ih =>
    exact evaluate_keeps (I := fun e => Shelved kinds e.met e.document) (P := fun mark node => node.kind = kinds mark)
      (fun _ _ literals scope hk _ he => shelved_visit he hk literals scope) tree scope hk _ ih
  | read readings _ ih =>
    -- What references found is not on the shelves.
    exact ih.of_shelf_eq (fun s => by cases s <;> rfl) fun filing hf => by cases filing <;> exact hf
  | draw _ _ ih => exact ih

end Evaluating

end SceneTree
