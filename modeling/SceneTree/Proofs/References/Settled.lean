import SceneTree.Proofs.Containment.Layouts
import SceneTree.Proofs.Translation.Naming

/-!
# Trees without names

Every named parameter of a tree may give way to a plain one that holds what the name means: the id of the first node of
that name, in the whole tree or in the object around the parameter. A tree that has been settled so has no reference
left. All else that it says is what the tree said before.
-/

namespace SceneTree

/-- The parameters of scripts, plain ones and named ones. -/
def Kind.isParam (kind : Kind) : Bool := kind.isNamedParam || kind == .param

/-- A kind of parameter is no other kind. -/
theorem Kind.ne_of_isParam {kind other : Kind} (h : kind.isParam = true) (ho : other.isParam = false) :
    kind ≠ other := by
  rintro rfl
  rw [h] at ho
  cases ho

theorem Kind.not_isObject_of_isParam {kind : Kind} (h : kind.isParam = true) : kind.isObject = false := by
  cases kind <;> first | rfl | cases h

theorem Kind.isParam_of_isNamedParam {kind : Kind} (h : kind.isNamedParam = true) : kind.isParam = true := by
  rw [Kind.isParam, h]
  rfl

/-- Parameters have no ids. -/
theorem Node.requestedId?_of_isParam {node : Node} (h : node.kind.isParam = true) : node.requestedId? = none := by
  unfold requestedId?
  generalize node.kind = kind at h
  match kind with
  | .param | .namedParam | .variableParam | .objectParam | .pictureParam | .soundParam => rfl

/-- A plain parameter that holds a value. -/
def Node.holding (v : Value) : Node := ⟨.param, fun field => if field = .value then v else .null⟩

namespace Branch

/-- The id that the name on a parameter finds, null if it finds nothing. -/
def meant (names : Names) (b : Branch) : Value :=
  ((b.candidates names).firstNamed? (b.node.get .name)).getD .null

/-- What the name on a parameter was to be a name of, and the name, if it finds nothing. -/
def unresolved? (names : Names) (b : Branch) : Option (String × Value) :=
  if b.kind.isNamedParam ∧ (b.candidates names).firstNamed? (b.node.get .name) = none then
    some (b.node.targetCalled, b.node.get .name)
  else none

end Branch

namespace Tree

variable {ι : Type}

/-- The names on parameters of some trees that are the names of nothing. -/
def unresolved (forest : List (Tree Value)) : List (String × Value) :=
  gatherOf Branch.namesBelow Branch.unresolved? (names forest) forest

mutual

/-- A tree in which plain parameters stand for the named ones and hold the ids that these name. The ids are those in a
second tree, which is the first one with its ids. -/
def settle (names : Names) : Tree ι → Tree Value → Tree ι
  | .node mark data children, .node id _ inner =>
    if data.kind.isNamedParam then .node mark (.holding (Branch.meant names ⟨id, data, inner⟩)) []
    else .node mark data (settleAll (Branch.namesBelow names ⟨id, data, inner⟩) children inner)
  | t, _ => t

/-- Trees in which plain parameters stand for the named ones. -/
def settleAll (names : Names) : List (Tree ι) → List (Tree Value) → List (Tree ι)
  | t :: rest, u :: us => settle names t u :: settleAll names rest us
  | ts, _ => ts

end

/-- Plain values are settled. -/
@[simp] theorem settle_literal (names : Names) (v : Value) (t : Tree Value) :
    settle names (.literal v : Tree ι) t = .literal v := by
  rw [settle]
  simp

/-- Nodes are left alone where there is no second tree to go by. -/
@[simp] theorem settle_of_literal (names : Names) (t : Tree ι) (v : Value) : settle names t (.literal v) = t := by
  rw [settle]
  simp

@[simp] theorem settleAll_of_nil (names : Names) (forest : List (Tree ι)) : settleAll names forest [] = forest := by
  rw [settleAll]
  simp

/-- No trees are settled. -/
@[simp] theorem settleAll_nil (names : Names) (ts : List (Tree Value)) :
    settleAll names ([] : List (Tree ι)) ts = [] := by
  rw [settleAll]
  simp

end Tree

namespace Branch

/-- A node as it is when its tree has been settled. -/
def settled (names : Names) (b : Branch) : Branch :=
  if b.kind.isNamedParam then ⟨b.id, .holding (b.meant names), []⟩
  else { b with children := Tree.settleAll (b.namesBelow names) b.children b.children }

variable {names : Names} {b : Branch} {above : List Branch}

theorem settled_of_named (hk : b.kind.isNamedParam = true) :
    b.settled names = ⟨b.id, .holding (b.meant names), []⟩ := if_pos hk

theorem settled_of_not_named (hk : b.kind.isNamedParam = false) :
    b.settled names = { b with children := Tree.settleAll (b.namesBelow names) b.children b.children } := by
  rw [settled, hk]
  rfl

/-- A named parameter that holds what it may holds nothing. -/
theorem Holds.children_eq_nil (h : b.Holds) (hk : b.kind.isNamedParam = true) : b.children = [] := by
  have hleaf : b.kind.takesNodes = false := by cases hb : b.kind <;> rw [hb] at hk <;> first | rfl | cases hk
  have hnodes : Tree.nodesOf b.children = [] := h.nodes hleaf
  have hliterals : Tree.literals b.children = [] := h.literals (by rintro he; rw [he] at hk; cases hk)
  cases hc : b.children with
  | nil => rfl
  | cons t rest =>
    rw [hc] at hnodes hliterals
    cases t with
    | literal v => cases hliterals
    | node id data children => cases hnodes

/-- Below a node that is settled everything is, if nothing is below named parameters. -/
theorem children_settled (h : b.kind.isNamedParam = true → b.children = []) :
    (b.settled names).children = Tree.settleAll (b.namesBelow names) b.children b.children := by
  cases hk : b.kind.isNamedParam with
  | false => rw [settled_of_not_named hk]
  | true =>
    rw [settled_of_named hk, h hk]
    rfl

end Branch

namespace Tree

variable {ι : Type} {names : Names} {above : List Branch}

/-- Trees are settled one after the other. -/
theorem settleAll_node (b : Branch) (rest : List (Tree Value)) :
    settleAll names (.node b.id b.node b.children :: rest) (.node b.id b.node b.children :: rest) =
      .node (b.settled names).id (b.settled names).node (b.settled names).children :: settleAll names rest rest := by
  rw [settleAll, settle]
  cases hk : b.kind.isNamedParam with
  | false =>
    have hk' : b.node.kind.isNamedParam = false := hk
    rw [Branch.settled_of_not_named hk, hk']
    rfl
  | true =>
    have hk' : b.node.kind.isNamedParam = true := hk
    rw [Branch.settled_of_named hk, hk']
    rfl

theorem settleAll_literal (v : Value) (rest : List (Tree Value)) :
    settleAll names (.literal v :: rest : List (Tree Value)) (.literal v :: rest) =
      .literal v :: settleAll names rest rest := by
  rw [settleAll, settle_literal]

/-- Nothing but no trees is named no trees. -/
theorem eq_nil_of_allNamed {forest : List (Tree Nat)} {supply supply' : IdSupply}
    (h : allNamed forest supply = (.ok [], supply')) : forest = [] ∧ supply' = supply := by
  cases forest with
  | nil =>
    cases h
    exact ⟨rfl, rfl⟩
  | cons t rest =>
    rw [allNamed] at h
    obtain ⟨u, s₁, -, h⟩ := Attempt.bind_eq_ok_iff.mp h
    obtain ⟨us, s₂, -, h⟩ := Attempt.bind_eq_ok_iff.mp h
    cases h

/-- A node that is settled is a node with the same mark. -/
theorem exists_settle_node (names : Names) (mark : ι) (data : Node) (children : List (Tree ι)) (t : Tree Value) :
    ∃ data' children', settle names (.node mark data children) t = .node mark data' children' := by
  cases t with
  | node id _ inner =>
    rw [settle]
    split
    · exact ⟨_, _, rfl⟩
    · exact ⟨_, _, rfl⟩
  | literal v =>
    rw [settle_of_literal]
    exact ⟨_, _, rfl⟩

/-- The plain values among settled trees are those that were among them before. -/
theorem literals_settleAll (names : Names) (forest : List (Tree ι)) (ts : List (Tree Value)) :
    literals (settleAll names forest ts) = literals forest := by
  induction forest generalizing ts with
  | nil => rw [settleAll_nil]
  | cons t rest ih =>
    cases ts with
    | nil => rw [settleAll_of_nil]
    | cons u us =>
      rw [settleAll]
      cases t with
      | node mark data children =>
        obtain ⟨data', children', hs⟩ := exists_settle_node names mark data children u
        rw [hs, literals, literals, ih]
      | literal v =>
        rw [settle_literal, literals, literals, ih]

mutual

/-- Settling a tree leaves its marks, but for those below named parameters. -/
theorem nodes_settle (names : Names) : (tree : Tree ι) → (t : Tree Value) →
    ((tree.settle names t).nodes.map (·.1)).Sublist (tree.nodes.map (·.1))
  | .node mark data children, .node id _ inner => by
    rw [settle]
    split
    · rw [nodes, nodes, List.map_cons, List.map_cons]
      exact .cons_cons _ (List.nil_sublist _)
    · rw [nodes, nodes, List.map_cons, List.map_cons]
      exact .cons_cons _ (nodesOf_settleAll _ children inner)
  | .node mark data children, .literal v => by rw [settle_of_literal]
  | .literal v, t => by rw [settle_literal]

/-- Settling trees leaves their marks, but for those below named parameters. -/
theorem nodesOf_settleAll (names : Names) : (forest : List (Tree ι)) → (ts : List (Tree Value)) →
    ((nodesOf (settleAll names forest ts)).map (·.1)).Sublist ((nodesOf forest).map (·.1))
  | t :: rest, u :: us => by
    rw [settleAll, nodesOf, nodesOf, List.map_append, List.map_append]
    exact (nodes_settle names t u).append (nodesOf_settleAll names rest us)
  | [], ts => by rw [settleAll_nil]
  | t :: rest, [] => by rw [settleAll_of_nil]

end

mutual

/-- A tree that is settled takes the ids that it took before. -/
theorem named_settle {names : Names} : {tree : Tree Nat} → {t : Tree Value} → {supply supply' : IdSupply} →
    {above : List Branch} → tree.named supply = (.ok t, supply') →
    Everywhere (fun _ b => b.kind.isNamedParam = true → b.children = []) above t →
    (tree.settle names t).named supply = (.ok (t.settle names t), supply')
  | .node mark data children, t, supply, supply', above, hn, hp => by
    rw [named] at hn
    obtain ⟨id, s₁, hid, hn⟩ := Attempt.bind_eq_ok_iff.mp hn
    obtain ⟨ts, s₂, hts, hn⟩ := Attempt.bind_eq_ok_iff.mp hn
    cases hn
    rw [Everywhere] at hp
    cases hk : data.kind.isNamedParam with
    | false =>
      rw [settle, settle, hk, if_neg Bool.false_ne_true, if_neg Bool.false_ne_true, named,
        Attempt.bind_apply_of_ok hid, Attempt.bind_apply_of_ok (allNamed_settleAll hts hp.2)]
      rfl
    | true =>
      have hrequest := Node.requestedId?_of_isParam (Kind.isParam_of_isNamedParam hk)
      obtain ⟨rfl, rfl⟩ : id = .null ∧ s₁ = supply := by
        rw [Node.takeId_apply, hrequest] at hid
        cases hid
        exact ⟨rfl, rfl⟩
      obtain rfl : ts = [] := hp.1 hk
      obtain ⟨-, rfl⟩ := eq_nil_of_allNamed hts
      rw [settle, settle, hk, if_pos rfl, if_pos rfl, named]
      rfl
  | .literal v, t, supply, supply', above, hn, hp => by
    rw [named] at hn
    cases hn
    rw [settle_literal, settle_literal, named]
    rfl

/-- Trees that are settled take the ids that they took before. -/
theorem allNamed_settleAll {names : Names} : {forest : List (Tree Nat)} → {ts : List (Tree Value)} →
    {supply supply' : IdSupply} → {above : List Branch} → allNamed forest supply = (.ok ts, supply') →
    EverywhereIn (fun _ b => b.kind.isNamedParam = true → b.children = []) above ts →
    allNamed (settleAll names forest ts) supply = (.ok (settleAll names ts ts), supply')
  | [], ts, supply, supply', above, hn, hp => by
    rw [allNamed] at hn
    cases hn
    rw [settleAll_nil, settleAll_nil, allNamed]
    rfl
  | tree :: rest, ts, supply, supply', above, hn, hp => by
    rw [allNamed] at hn
    obtain ⟨t, s₁, ht, hn⟩ := Attempt.bind_eq_ok_iff.mp hn
    obtain ⟨us, s₂, hus, hn⟩ := Attempt.bind_eq_ok_iff.mp hn
    cases hn
    rw [EverywhereIn] at hp
    rw [settleAll, settleAll, allNamed, Attempt.bind_apply_of_ok (named_settle ht hp.1),
      Attempt.bind_apply_of_ok (allNamed_settleAll hus hp.2)]
    rfl

end

end Tree

namespace Branch

variable {names : Names} {b : Branch}

/-- Named parameters are parameters also when they have been settled. -/
theorem isParam_settled (names : Names) (hk : b.kind.isNamedParam = true) :
    b.kind.isParam = true ∧ (b.settled names).kind.isParam = true := by
  rw [settled_of_named hk, Kind.isParam, hk]
  exact ⟨rfl, rfl⟩

/-- What is no parameter is of the same kind when it has been settled. -/
theorem kind_settled_eq_iff {kind : Kind} (ho : kind.isParam = false) :
    (b.settled names).kind = kind ↔ b.kind = kind := by
  cases hk : b.kind.isNamedParam with
  | false => rw [settled_of_not_named hk]; rfl
  | true =>
    obtain ⟨hold, hnew⟩ := isParam_settled names hk
    exact iff_of_false (Kind.ne_of_isParam hnew ho) (Kind.ne_of_isParam hold ho)

theorem isObject_settled : (b.settled names).kind.isObject = b.kind.isObject := by
  cases hk : b.kind.isNamedParam with
  | false => rw [settled_of_not_named hk]; rfl
  | true =>
    obtain ⟨hold, hnew⟩ := isParam_settled names hk
    rw [Kind.not_isObject_of_isParam hold, Kind.not_isObject_of_isParam hnew]

end Branch

namespace Tree

section

variable {κ κ' α β : Type} {names : Names} {above : List Branch} {forest : List (Tree Value)}

/-- What neither looks below nodes nor at parameters is the same in settled trees. -/
theorem gatherOf_settleAll {step : κ → Branch → κ} {piece : κ → Branch → Option α}
    (hstep : ∀ c b ts, step c { b with children := ts } = step c b)
    (hpiece : ∀ c b ts, piece c { b with children := ts } = piece c b)
    (hparam : ∀ c b, b.kind.isParam = true → piece c b = none)
    (h : EverywhereIn (fun _ b => b.kind.isNamedParam = true → b.children = []) above forest) (names : Names) (c : κ) :
    gatherOf step piece c (settleAll names forest forest) = gatherOf step piece c forest := by
  induction forest using forest_induction generalizing above names c with
  | nil => rw [settleAll_nil]
  | literal v rest ih =>
    rw [settleAll_literal]
    exact ih ((everywhereIn_literal v).mp h) names c
  | node b rest ihc ihr =>
    obtain ⟨hb, hc, hr⟩ := everywhereIn_node.mp h
    rw [settleAll_node, gatherOf_node (b.settled names), gatherOf_node, ihr hr, Branch.children_settled hb, ihc hc]
    cases hk : b.kind.isNamedParam with
    | false => rw [Branch.settled_of_not_named hk, hpiece, hstep]
    | true =>
      obtain ⟨hold, hnew⟩ := Branch.isParam_settled names hk
      rw [hparam c _ hnew, hparam c b hold, hb hk]
      rfl

variable {step : κ → Branch → κ} {step' : κ' → Branch → κ'} {piece : κ → Branch → Option α}
  {piece' : κ' → Branch → Option β} {P : List Branch → Branch → Prop} {Q : κ → κ' → List Branch → Prop}
  {R : α → β → Prop} {names₀ : Names}

/-- What the nodes of some trees have to offer is related to what the nodes of the settled trees have to offer, if that
is so for each node. -/
theorem EverywhereIn.forall₂_gatherOf (hP : ∀ above b, P above b → b.kind.isNamedParam = true → b.children = [])
    (hstep : ∀ c c' above b, Q c c' above → b.kind.isNamedParam = false →
      Q (step c b) (step' c' (b.settled (Branch.namesBelowAll names₀ above))) (b :: above))
    (hpiece : ∀ c c' above b, Q c c' above → P above b → EverywhereIn P (b :: above) b.children →
      Option.Rel R (piece c b) (piece' c' (b.settled (Branch.namesBelowAll names₀ above))))
    (h : EverywhereIn P above forest) {c : κ} {c' : κ'} (hc : Q c c' above) :
    List.Forall₂ R (gatherOf step piece c forest)
      (gatherOf step' piece' c' (settleAll (Branch.namesBelowAll names₀ above) forest forest)) := by
  induction forest using forest_induction generalizing above c c' with
  | nil =>
    rw [settleAll_nil]
    exact .nil
  | literal v rest ih =>
    rw [settleAll_literal]
    exact ih ((everywhereIn_literal v).mp h) hc
  | node b rest ihc ihr =>
    obtain ⟨hb, hbelow, hrest⟩ := everywhereIn_node.mp h
    rw [settleAll_node, gatherOf_node (b.settled (Branch.namesBelowAll names₀ above)), gatherOf_node]
    refine List.rel_append ?_ (List.rel_append ?_ (ihr hrest hc))
    · have hrel := hpiece c c' above b hc hb hbelow
      generalize piece c b = x at hrel ⊢
      generalize piece' c' _ = y at hrel ⊢
      cases hrel with
      | some hR => exact .cons hR .nil
      | none => exact .nil
    · rw [Branch.children_settled (hP above b hb)]
      cases hk : b.kind.isNamedParam with
      | false => exact ihc hbelow (hstep c c' above b hc hk)
      | true =>
        rw [hP above b hb hk, settleAll_nil]
        exact .nil

end

section

variable {forest : List (Tree Value)} {above : List Branch} {names : Names}

/-- What a tree says of nodes by themselves it says also when it has been settled. -/
theorem each_settleAll {α : Type} {piece : Branch → Option α}
    (hpiece : ∀ b ts, piece { b with children := ts } = piece b) (hparam : ∀ b, b.kind.isParam = true → piece b = none)
    (h : EverywhereIn (fun _ b => b.kind.isNamedParam = true → b.children = []) above forest) (names : Names) :
    each piece (settleAll names forest forest) = each piece forest :=
  gatherOf_settleAll (fun _ _ _ => rfl) (fun _ => hpiece) (fun _ => hparam) h names ()

end

end Tree

namespace Branch

variable {names : Names} {b : Branch} {above : List Branch}

/-- The pictures of an object, and those that it shows. -/
theorem pictures_settled
    (h : Tree.EverywhereIn (fun _ b => b.kind.isNamedParam = true → b.children = []) above b.children)
    (names : Names) :
    let b' : Branch := { b with children := Tree.settleAll names b.children b.children }
    b'.pictures = b.pictures ∧ b'.sounds = b.sounds ∧ b'.selectedPicture = b.selectedPicture ∧
      b'.locals = b.locals := by
  refine ⟨?_, ?_, ?_, ?_⟩
  · exact Tree.gatherOf_settleAll (fun _ _ _ => rfl) (fun _ _ _ => rfl)
      (fun _ _ hk => if_neg fun hp => Kind.ne_of_isParam hk rfl hp.2) h names true
  · exact Tree.gatherOf_settleAll (fun _ _ _ => rfl) (fun _ _ _ => rfl)
      (fun _ _ hk => if_neg fun hp => Kind.ne_of_isParam hk rfl hp.2) h names true
  · exact congrArg (List.getLastD · _) (Tree.gatherOf_settleAll (fun _ _ _ => rfl) (fun _ _ _ => rfl)
      (fun _ _ hk => if_neg fun hp => Kind.ne_of_isParam hk rfl hp.2.1) h names true)
  · exact Tree.gatherOf_settleAll (fun _ _ _ => rfl) (fun _ _ _ => rfl)
      (fun _ _ hk => if_neg fun hp => Kind.ne_of_isParam hk rfl hp.2) h names true

end Branch

end SceneTree
