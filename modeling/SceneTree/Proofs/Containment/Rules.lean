import SceneTree.Proofs.Translation.Plan

/-!
# What may stand where

The rules of containment, in terms of the nodes above a node, nearest first, and of what is directly inside it. They
speak of the tree alone: nothing here refers to scopes, documents or the order in which nodes are evaluated.
-/

namespace SceneTree

namespace Kind

/-- The kinds of node whose own children are their scripts or their content. -/
def isOwner (kind : Kind) : Bool := kind.isObject || kind == .function

/-- The kinds of node that take parameters. -/
def takesParams (kind : Kind) : Bool := kind == .statement || kind == .script

theorem isOwner_iff {kind : Kind} : kind.isOwner = true ↔ kind.isObject = true ∨ kind = .function := by
  simp [isOwner]

theorem takesParams_iff {kind : Kind} : kind.takesParams = true ↔ kind = .statement ∨ kind = .script := by
  simp [takesParams]

/-- No kind both has a script of its own and takes parameters. -/
theorem takesParams_of_isOwner {kind : Kind} (h : kind.isOwner = true) : kind.takesParams = false := by
  cases kind <;> first | rfl | cases h

/-- The kinds of node that take nodes as children. -/
def takesNodes : Kind → Bool
  | .fragment | .project | .scene | .object | .sprite | .textBox | .function | .statement | .script => true
  | _ => false

end Kind

namespace Branch

/-- The nearest object among the nodes above. -/
def nearestObject (above : List Branch) : Option Branch := above.find? (·.kind.isObject)

/-- The nearest object or function among the nodes above. -/
def nearestOwner (above : List Branch) : Option Branch := above.find? (·.kind.isOwner)

/-- The nearest object, function, statement or script among the nodes above. -/
def nearestBlock (above : List Branch) : Option Branch :=
  above.find? fun a => a.kind.isOwner || a.kind.takesParams

/-- Whether parameters may stand below some nodes: the nearest block is a statement or a script. -/
def InBlock (above : List Branch) : Prop := ∃ a, nearestBlock above = some a ∧ a.kind.takesParams = true

section

variable {b : Branch} {above : List Branch}

/-- One of a node and those above it has a property. -/
theorem exists_mem_cons {P : Branch → Prop} : (∃ a ∈ b :: above, P a) ↔ P b ∨ ∃ a ∈ above, P a := by
  simp only [List.mem_cons, exists_eq_or_imp]

/-- The nearest owner among a node and those above it is a function if the node is one, or if the node is no owner and
the nearest owner above is a function. -/
theorem nearestOwner_cons : (∃ a, nearestOwner (b :: above) = some a ∧ a.kind = .function) ↔
    b.kind = .function ∨ b.kind.isOwner = false ∧ ∃ a, nearestOwner above = some a ∧ a.kind = .function := by
  unfold nearestOwner
  rw [List.find?_cons]
  cases ho : b.kind.isOwner with
  | true => simp
  | false =>
    have hk : b.kind ≠ .function := by
      intro he
      rw [he] at ho
      cases ho
    simp [hk]

/-- The nearest block among a node and those above it takes parameters if the node does, or if the node is no owner and
the nearest block above does. -/
theorem inBlock_cons :
    InBlock (b :: above) ↔ b.kind.takesParams = true ∨ b.kind.isOwner = false ∧ InBlock above := by
  unfold InBlock nearestBlock
  rw [List.find?_cons]
  cases ho : b.kind.isOwner with
  | true => simp [Kind.takesParams_of_isOwner ho]
  | false => cases hp : b.kind.takesParams <;> simp [hp]

/-- No parameter stands right inside an object or a function. -/
theorem not_inBlock_of_isOwner (hk : b.kind.isOwner = true) : ¬ InBlock (b :: above) := by
  rw [inBlock_cons, hk, Kind.takesParams_of_isOwner hk]
  rintro (hp | ⟨ho, -⟩)
  · cases hp
  · cases ho

end

/-- Whether a node may stand below some nodes. -/
def Placed (above : List Branch) (b : Branch) : Prop :=
  match b.kind with
  | .fragment | .project => True
  | .scene | .variable | .message | .function | .table => ∃ a ∈ above, a.kind = .project
  | .object | .sprite | .textBox => ∃ a ∈ above, a.kind = .scene
  | .picture => ∃ a, nearestObject above = some a ∧ (a.node.get .objectType).isText "sprite" = true
  | .sound => ∃ a ∈ above, a.kind.isObject = true
  | .localVariable => ∃ a, nearestOwner above = some a ∧ a.kind = .function
  | .statement => ∃ a ∈ above, a.kind.isOwner = true
  | .script | .param | .variableParam | .objectParam => InBlock above
  | .pictureParam | .soundParam => InBlock above ∧ ∃ a ∈ above, a.kind.isObject = true
  | .node | .namedParam => False

/-- Whether a node may hold what is directly inside it: nodes only if its kind takes nodes, plain values only if it is a
parameter, and no parameter is given more than one value. -/
structure Holds (b : Branch) : Prop where
  nodes : b.kind.takesNodes = false → Tree.nodesOf b.children = []
  literals : b.kind ≠ .param → Tree.literals b.children = []
  single : b.kind = .param → (b.node.paramValues (Tree.literals b.children)).length ≤ 1

/-- What names mean below some nodes. -/
def namesBelowAll (names : Names) (above : List Branch) : Names :=
  above.foldr (fun a names => a.namesBelow names) names

/-- Whether the name on a parameter, if it is a named one, is the name of something. -/
def Resolves (names : Names) (above : List Branch) (b : Branch) : Prop :=
  b.kind.isNamedParam = true →
    ((b.candidates (namesBelowAll names above)).firstNamed? (b.node.get .name)).isSome = true

end Branch

namespace Tree

mutual

/-- Every node of a tree has a property, given the nodes above it, nearest first. -/
def Everywhere (P : List Branch → Branch → Prop) (above : List Branch) : Tree Value → Prop
  | .node id data children =>
    P above ⟨id, data, children⟩ ∧ EverywhereIn P (⟨id, data, children⟩ :: above) children
  | .literal _ => True

/-- Every node of some trees has a property, given the nodes above it, nearest first. -/
def EverywhereIn (P : List Branch → Branch → Prop) (above : List Branch) : List (Tree Value) → Prop
  | [] => True
  | t :: rest => Everywhere P above t ∧ EverywhereIn P above rest

end

/-- The rules of containment: there is exactly one project, every node stands where it may and holds what it may, and
every name on a parameter is the name of something. -/
structure Contained (forest : List (Tree Value)) : Prop where
  single : (each Branch.project? forest).length = 1
  placed : EverywhereIn Branch.Placed [] forest
  holds : EverywhereIn (fun _ => Branch.Holds) [] forest
  resolves : EverywhereIn (Branch.Resolves (names forest)) [] forest

section

variable {P Q : List Branch → Branch → Prop} {above : List Branch} {b : Branch} {rest forest : List (Tree Value)}

theorem everywhereIn_nil : EverywhereIn P above [] := by
  rw [EverywhereIn]
  trivial

/-- A node and its surroundings, what is inside it, and what comes after it. -/
theorem everywhereIn_node :
    EverywhereIn P above (.node b.id b.node b.children :: rest) ↔
      P above b ∧ EverywhereIn P (b :: above) b.children ∧ EverywhereIn P above rest := by
  rw [EverywhereIn, Everywhere, and_assoc]

theorem everywhereIn_literal (v : Value) :
    EverywhereIn P above (.literal v :: rest) ↔ EverywhereIn P above rest := by
  rw [EverywhereIn, Everywhere]
  exact ⟨And.right, fun h => ⟨trivial, h⟩⟩

/-- A property holds everywhere where there are no nodes. -/
theorem everywhereIn_of_nodesOf (h : nodesOf forest = []) : EverywhereIn P above forest := by
  induction forest with
  | nil => exact everywhereIn_nil
  | cons t rest ih =>
    rw [nodesOf, List.append_eq_nil_iff] at h
    cases t with
    | node id data children => cases h.1
    | literal v => exact (everywhereIn_literal v).mpr (ih h.2)

/-- What holds everywhere together with what it implies. -/
theorem EverywhereIn.mp (hPQ : ∀ above b, P above b → Q above b) (h : EverywhereIn P above forest) :
    EverywhereIn Q above forest := by
  induction forest using forest_induction generalizing above with
  | nil => exact everywhereIn_nil
  | literal v rest ih => exact (everywhereIn_literal v).mpr (ih ((everywhereIn_literal v).mp h))
  | node b rest ihc ihr =>
    obtain ⟨hb, hc, hr⟩ := everywhereIn_node.mp h
    exact everywhereIn_node.mpr ⟨hPQ above b hb, ihc hc, ihr hr⟩

/-- Two properties that hold everywhere hold together. -/
theorem EverywhereIn.and (h : EverywhereIn P above forest) (h' : EverywhereIn Q above forest) :
    EverywhereIn (fun above b => P above b ∧ Q above b) above forest := by
  induction forest using forest_induction generalizing above with
  | nil => exact everywhereIn_nil
  | literal v rest ih =>
    exact (everywhereIn_literal v).mpr (ih ((everywhereIn_literal v).mp h) ((everywhereIn_literal v).mp h'))
  | node b rest ihc ihr =>
    obtain ⟨hb, hc, hr⟩ := everywhereIn_node.mp h
    obtain ⟨hb', hc', hr'⟩ := everywhereIn_node.mp h'
    exact everywhereIn_node.mpr ⟨⟨hb, hb'⟩, ihc hc hc', ihr hr hr'⟩

/-- Whatever the nodes of some trees have to offer, one of them offers it, in a context that goes with the nodes above
it. -/
theorem EverywhereIn.of_mem_gatherOf {κ α : Type} {step : κ → Branch → κ} {piece : κ → Branch → Option α}
    {R : κ → List Branch → Prop}
    (hR : ∀ c above b, R c above → P above b → EverywhereIn P (b :: above) b.children → R (step c b) (b :: above))
    {c : κ} {x : α} (h : EverywhereIn P above forest) (hc : R c above) (hx : x ∈ gatherOf step piece c forest) :
    ∃ c' above' b, R c' above' ∧ P above' b ∧ EverywhereIn P (b :: above') b.children ∧ piece c' b = some x := by
  induction forest using forest_induction generalizing above c with
  | nil => exact absurd hx List.not_mem_nil
  | literal v rest ih => exact ih ((everywhereIn_literal v).mp h) hc hx
  | node b rest ihc ihr =>
    obtain ⟨hb, hchildren, hr⟩ := everywhereIn_node.mp h
    rcases mem_gatherOf_node.mp hx with hx | hx | hx
    · exact ⟨c, above, b, hc, hb, hchildren, hx⟩
    · exact ihc hchildren (hR c above b hc hb hchildren) hx
    · exact ihr hr hc hx

/-- What the nodes of some trees offer goes with something else that they offer, if that is so for each of them. -/
theorem exists_mem_gatherOf {κ α β : Type} {step : κ → Branch → κ} {piece : κ → Branch → Option α}
    {piece' : κ → Branch → Option β} {Q : α → β → Prop}
    (hp : ∀ c b x, piece c b = some x → ∃ y, piece' c b = some y ∧ Q x y) {c : κ} {x : α}
    (hx : x ∈ gatherOf step piece c forest) : ∃ y ∈ gatherOf step piece' c forest, Q x y := by
  induction forest using forest_induction generalizing c with
  | nil => exact absurd hx List.not_mem_nil
  | literal v rest ih => exact ih hx
  | node b rest ihc ihr =>
    rcases mem_gatherOf_node.mp hx with hx | hx | hx
    · obtain ⟨y, hy, hQ⟩ := hp c b x hx
      exact ⟨y, mem_gatherOf_node.mpr (.inl hy), hQ⟩
    · obtain ⟨y, hy, hQ⟩ := ihc hx
      exact ⟨y, mem_gatherOf_node.mpr (.inr (.inl hy)), hQ⟩
    · obtain ⟨y, hy, hQ⟩ := ihr hx
      exact ⟨y, mem_gatherOf_node.mpr (.inr (.inr hy)), hQ⟩

/-- Whatever the nodes of some trees have to offer in one context or another, one of them offers it. -/
theorem EverywhereIn.of_mem_any {κ α : Type} {step : κ → Branch → κ} {piece : κ → Branch → Option α} {c : κ} {x : α}
    (h : EverywhereIn P above forest) (hx : x ∈ gatherOf step piece c forest) :
    ∃ c' above' b, P above' b ∧ EverywhereIn P (b :: above') b.children ∧ piece c' b = some x := by
  obtain ⟨c', above', b, -, hb, hc, hp⟩ :=
    h.of_mem_gatherOf (R := fun _ _ => True) (fun _ _ _ _ _ _ => trivial) trivial hx
  exact ⟨c', above', b, hb, hc, hp⟩

/-- Whatever the nodes of some trees have to offer wherever they stand, one of them offers it. -/
theorem EverywhereIn.of_mem_each {α : Type} {piece : Branch → Option α} {x : α} (h : EverywhereIn P above forest)
    (hx : x ∈ each piece forest) : ∃ above' b, P above' b ∧ piece b = some x := by
  obtain ⟨-, above', b, hb, -, hp⟩ := h.of_mem_any hx
  exact ⟨above', b, hb, hp⟩

end

end Tree

end SceneTree
