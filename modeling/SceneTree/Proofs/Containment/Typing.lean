import SceneTree.Proofs.Containment.Data
import SceneTree.Proofs.Containment.Rules

/-!
# Typed trees

A tree is typed if every attribute of its nodes holds plain data of the type that it is declared with, and so do the
plain values in it. A typed tree stays typed when its nodes get their ids.
-/

namespace SceneTree

/-- The attributes of a node are plain data of the types that they are declared with. -/
structure Node.Typed (node : Node) : Prop where
  json : ∀ field, (node.get field).isJson = true
  id : (node.get .id).IsTextOrNull
  interface : node.kind = .project → ∃ entries, node.get .interface = .map entries
  lists : node.kind = .project → ∀ field ∈ [Field.expansionBlocks, .aiUtilizeBlocks, .hardwareLiteBlocks,
    .externalModules, .externalModulesLite], ∃ items, node.get field = .list items
  data : node.kind = .table → ∃ entries, node.get .data = .map entries
  extensions : node.kind = .script → ∃ items, node.get .extensions = .list items

/-- A node, its id and the plain values inside it are typed. -/
structure Branch.Typed (b : Branch) : Prop where
  node : b.node.Typed
  id : b.id.IsTextOrNull
  literals : ∀ v ∈ Tree.literals b.children, v.isJson = true

namespace Node.Typed

variable {node : Node}

/-- A node that is typed authors texts only. -/
theorem authorsText (h : node.Typed) : node.AuthorsText := by
  intro id hid
  unfold Node.requestedId? at hid
  generalize node.kind = kind at hid
  match kind with
  | .scene | .object | .sprite | .textBox | .picture | .sound | .variable | .message | .function =>
    cases hid
    exact h.id
  | .localVariable | .script =>
    cases hid
    exact .inl rfl
  | .node | .fragment | .project | .table | .statement | .param | .namedParam | .variableParam | .objectParam
  | .pictureParam | .soundParam => cases hid

end Node.Typed

/-- The id that a node takes on which only texts are authored is a text, or null if it has none. -/
theorem Node.AuthorsText.isTextOrNull_of_takeId {node : Node} {id : Value} {supply supply' : IdSupply}
    (h : node.AuthorsText) (hid : node.takeId supply = (.ok id, supply')) : id.IsTextOrNull := by
  rw [Node.takeId_apply] at hid
  cases hr : node.requestedId? with
  | none =>
    rw [hr] at hid
    cases hid
    exact .inl rfl
  | some authored =>
    rw [hr] at hid
    simp only at hid
    split at hid
    · cases hid
      exact h _ hr
    · split at hid
      · cases hid
        exact .inr ⟨_, rfl⟩
      · cases hid

namespace Tree

variable {ι : Type}

mutual

/-- All nodes in a tree are typed, and all plain values in it are plain data. -/
def Typed : Tree ι → Prop
  | .node _ data children => data.Typed ∧ AllTyped children
  | .literal v => v.isJson = true

/-- All nodes in some trees are typed, and all plain values in them are plain data. -/
def AllTyped : List (Tree ι) → Prop
  | [] => True
  | t :: rest => Typed t ∧ AllTyped rest

end

/-- The plain values among typed trees are plain data. -/
theorem AllTyped.literals {forest : List (Tree ι)} (h : AllTyped forest) :
    ∀ v ∈ Tree.literals forest, v.isJson = true := by
  induction forest with
  | nil => exact List.forall_mem_nil _
  | cons t rest ih =>
    rw [AllTyped] at h
    cases t with
    | node id data children => exact ih h.2
    | literal w =>
      intro v hv
      rw [Tree.literals, List.mem_cons] at hv
      rcases hv with rfl | hv
      · have hw := h.1
        rw [Typed] at hw
        exact hw
      · exact ih h.2 v hv

mutual

/-- A typed tree is given. -/
theorem Typed.given : {t : Tree ι} → t.Typed → t.Given
  | .node _ data children, h => by
    rw [Typed] at h
    rw [Given]
    exact ⟨fun field => Value.isGiven_of_isJson _ (h.1.json field), AllTyped.given h.2⟩
  | .literal v, h => by
    rw [Typed] at h
    rw [Given]
    exact Value.isGiven_of_isJson v h

/-- Typed trees are given. -/
theorem AllTyped.given : {forest : List (Tree ι)} → AllTyped forest → AllGiven forest
  | [], _ => by
    rw [AllGiven]
    trivial
  | t :: rest, h => by
    rw [AllTyped] at h
    rw [AllGiven]
    exact ⟨Typed.given h.1, AllTyped.given h.2⟩

end

mutual

/-- Only texts are authored on the nodes of a typed tree. -/
theorem Typed.authorsText : {t : Tree ι} → t.Typed → ∀ n ∈ t.nodes, n.2.AuthorsText
  | .node _ data children, h => by
    rw [Typed] at h
    rw [nodes]
    exact List.forall_mem_cons.mpr ⟨h.1.authorsText, AllTyped.authorsText h.2⟩
  | .literal _, _ => by
    rw [nodes]
    exact List.forall_mem_nil _

/-- Only texts are authored on the nodes of typed trees. -/
theorem AllTyped.authorsText : {forest : List (Tree ι)} → AllTyped forest → ∀ n ∈ nodesOf forest, n.2.AuthorsText
  | [], _ => by
    rw [nodesOf]
    exact List.forall_mem_nil _
  | t :: rest, h => by
    rw [AllTyped] at h
    rw [nodesOf]
    exact List.forall_mem_append.mpr ⟨Typed.authorsText h.1, AllTyped.authorsText h.2⟩

end

mutual

/-- The nodes of a typed tree are typed also with their ids. -/
theorem Typed.named : {tree : Tree Nat} → tree.Typed → ∀ {t : Tree Value} {supply supply' : IdSupply},
    tree.named supply = (.ok t, supply') → ∀ above, Everywhere (fun _ => Branch.Typed) above t
  | .node mark data children, h, t, supply, supply', hn, above => by
    rw [Typed] at h
    rw [Tree.named] at hn
    obtain ⟨id, s₁, hid, hn⟩ := Attempt.bind_eq_ok_iff.mp hn
    obtain ⟨ts, s₂, hts, hn⟩ := Attempt.bind_eq_ok_iff.mp hn
    cases hn
    have hliterals : Tree.literals ts = Tree.literals children := literals_of_allNamed hts
    rw [Everywhere]
    exact ⟨⟨h.1, h.1.authorsText.isTextOrNull_of_takeId hid, hliterals ▸ h.2.literals⟩, AllTyped.named h.2 hts _⟩
  | .literal v, _, t, supply, supply', hn, above => by
    rw [Tree.named] at hn
    cases hn
    rw [Everywhere]
    trivial

/-- The nodes of typed trees are typed also with their ids. -/
theorem AllTyped.named : {forest : List (Tree Nat)} → AllTyped forest → ∀ {ts : List (Tree Value)}
    {supply supply' : IdSupply}, allNamed forest supply = (.ok ts, supply') →
      ∀ above, EverywhereIn (fun _ => Branch.Typed) above ts
  | [], _, ts, supply, supply', hn, above => by
    rw [allNamed] at hn
    cases hn
    exact everywhereIn_nil
  | tree :: rest, h, ts, supply, supply', hn, above => by
    rw [AllTyped] at h
    rw [allNamed] at hn
    obtain ⟨t, s₁, ht, hn⟩ := Attempt.bind_eq_ok_iff.mp hn
    obtain ⟨us, s₂, hus, hn⟩ := Attempt.bind_eq_ok_iff.mp hn
    cases hn
    rw [EverywhereIn]
    exact ⟨Typed.named h.1 ht above, AllTyped.named h.2 hus above⟩

end

end Tree

end SceneTree
