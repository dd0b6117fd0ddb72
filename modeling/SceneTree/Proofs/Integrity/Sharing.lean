import SceneTree.Node.Forest
import SceneTree.Proofs.Evaluation.Collections
import SceneTree.Proofs.Translation.Successes

/-!
# Nodes that stand in several places

A node may be the child of several others, and of one several times. What is below it is then evaluated again and again,
each time in another scope. It is the same in all places, though: a shape tells for each mark the node and its children,
and no node is below itself.
-/

namespace SceneTree

/-- The node of every mark, and its children. -/
abbrev Shape := Nat → Node × List (Tree Nat)

namespace Tree

/-- Wherever a node stands in some trees, it is the one that a shape has for its mark, with the same children. -/
inductive AllFrom (shape : Shape) : List (Tree Nat) → Prop where
  | nil : AllFrom shape []
  | literal (v : Value) {rest : List (Tree Nat)} (hr : AllFrom shape rest) : AllFrom shape (.literal v :: rest)
  | node {mark : Nat} {node : Node} {children rest : List (Tree Nat)} (hs : shape mark = (node, children))
      (hc : AllFrom shape children) (hr : AllFrom shape rest) : AllFrom shape (.node mark node children :: rest)

/-- The marks of the nodes in some trees. -/
def marksOf (forest : List (Tree Nat)) : List Nat := (nodesOf forest).map (·.1)

@[simp] theorem marksOf_nil : marksOf [] = [] := rfl

@[simp] theorem marksOf_literal (v : Value) (rest : List (Tree Nat)) :
    marksOf (.literal v :: rest) = marksOf rest := rfl

@[simp] theorem marksOf_node (mark : Nat) (node : Node) (children rest : List (Tree Nat)) :
    marksOf (.node mark node children :: rest) = mark :: (marksOf children ++ marksOf rest) := by
  simp [marksOf, nodesOf, nodes]

end Tree

/-- The marks of the nodes below the node of a mark. -/
def Shape.below (shape : Shape) (mark : Nat) : List Nat := Tree.marksOf (shape mark).2

namespace Tree.AllFrom

variable {shape : Shape} {forest : List (Tree Nat)} {mark mark' : Nat}

/-- The nodes are those of the shape. -/
theorem eq_of_mem (h : AllFrom shape forest) {n : Nat × Node} (hn : n ∈ nodesOf forest) : n.2 = (shape n.1).1 := by
  induction h with
  | nil => cases hn
  | literal v _ ih => exact ih hn
  | node hs _ _ ihc ihr =>
    rw [nodesOf, nodes, List.cons_append] at hn
    rcases List.mem_cons.mp hn with rfl | hn
    · rw [hs]
    · exact (List.mem_append.mp hn).elim ihc ihr

/-- What is below a node of some trees is smaller than these, and from the same shape. -/
theorem children_of_mem (h : AllFrom shape forest) (hm : mark ∈ marksOf forest) :
    AllFrom shape (shape mark).2 ∧ (shape.below mark).length < (marksOf forest).length := by
  induction h with
  | nil => cases hm
  | literal v _ ih => exact ih hm
  | @node _ node children rest hs hc _ ihc ihr =>
    rw [marksOf_node, List.length_cons, List.length_append]
    rw [marksOf_node, List.mem_cons, List.mem_append] at hm
    rcases hm with rfl | hm | hm
    · have hself : (shape.below mark).length = (marksOf children).length := by rw [Shape.below, hs]
      rw [hs]
      exact ⟨hc, by omega⟩
    · exact ⟨(ihc hm).1, by have := (ihc hm).2; omega⟩
    · exact ⟨(ihr hm).1, by have := (ihr hm).2; omega⟩

/-- No node is below itself. -/
theorem not_mem_below (h : AllFrom shape forest) (hm : mark ∈ marksOf forest) : mark ∉ shape.below mark := by
  intro hself
  obtain ⟨hc, -⟩ := h.children_of_mem hm
  exact Nat.lt_irrefl _ (hc.children_of_mem hself).2

/-- What is below a node of some trees is in these. -/
theorem mem_of_mem_below (h : AllFrom shape forest) (hm : mark ∈ marksOf forest) (hb : mark' ∈ shape.below mark) :
    mark' ∈ marksOf forest := by
  induction h with
  | nil => cases hm
  | literal v _ ih => exact ih hm
  | node hs _ _ ihc ihr =>
    rw [marksOf_node, List.mem_cons, List.mem_append] at hm ⊢
    rcases hm with rfl | hm | hm
    · rw [Shape.below, hs] at hb
      exact .inr (.inl hb)
    · exact .inr (.inl (ihc hm))
    · exact .inr (.inr (ihr hm))

end Tree.AllFrom

namespace Evaluating

variable {shape : Shape} {scope : NodeScope} {forest : List (Tree Nat)} {e e' : Evaluation}

/-- What all visits of nodes of a shape keep that succeed, an evaluation of such nodes that succeeds keeps. -/
theorem Evaluates.preserves {I : Evaluation → Prop} (h : Evaluates scope forest e e')
    (hs : Tree.AllFrom shape forest)
    (hv : ∀ mark ∈ Tree.marksOf forest, ∀ scope e out e₁,
      visit mark (shape mark).1 (Tree.literals (shape mark).2) scope e = (.ok out, e₁) → I e → I e₁)
    (hI : I e) : I e' := by
  induction h with
  | nil => exact hI
  | literal v _ ih =>
    cases hs with
    | literal _ hr => exact ih hr hv hI
  | leaf hvisit _ _ ih =>
    cases hs with
    | node hs _ hr =>
      simp only [Tree.marksOf_node, List.forall_mem_cons, List.forall_mem_append, hs] at hv
      exact ih hr hv.2.2 (hv.1 _ _ _ _ hvisit hI)
  | branch hvisit _ _ ihc ihr =>
    cases hs with
    | node hs hc hr =>
      simp only [Tree.marksOf_node, List.forall_mem_cons, List.forall_mem_append, hs] at hv
      exact ihr hr hv.2.2 (ihc hc hv.2.1 (hv.1 _ _ _ _ hvisit hI))

end Evaluating

/-- A tree and others that are all from a shape. -/
theorem Tree.AllFrom.cons {shape : Shape} {t : Tree Nat} {rest : List (Tree Nat)} (h : AllFrom shape [t])
    (hr : AllFrom shape rest) : AllFrom shape (t :: rest) := by
  cases h with
  | literal v _ => exact .literal v hr
  | node hs hc _ => exact .node hs hc hr

namespace Forest

variable {forest : Forest}

/-- What more is found in a list where more is found for its items. -/
theorem mapM_mono {α β : Type} {f g : α → Option β} (h : ∀ a b, f a = some b → g a = some b) {as : List α}
    {bs : List β} (hf : as.mapM f = some bs) : as.mapM g = some bs := by
  induction as generalizing bs with
  | nil => exact hf
  | cons a rest ih =>
    rw [List.mapM_cons, Option.bind_eq_bind, Option.bind_eq_some_iff] at hf
    obtain ⟨b, hb, hf⟩ := hf
    obtain ⟨cs, hcs, hf⟩ := Option.bind_eq_some_iff.mp hf
    rw [List.mapM_cons, h a b hb, ih hcs]
    exact hf

/-- A tree of a node is the node with the trees of its children. -/
theorem treeTo_node_eq_some {depth index : Nat} {t : Tree Nat}
    (h : forest.treeTo (depth + 1) (.node index) = some t) :
    ∃ node children ts, forest.nodes[index]? = some (node, children) ∧
      children.mapM (forest.treeTo depth) = some ts ∧ t = .node index node ts := by
  rw [treeTo, Option.bind_eq_bind, Option.bind_eq_some_iff] at h
  obtain ⟨⟨node, children⟩, hn, h⟩ := h
  obtain ⟨ts, hts, h⟩ := Option.bind_eq_some_iff.mp h
  exact ⟨node, children, ts, hn, hts, (Option.some_inj.mp h).symm⟩

/-- A tree that is found down to a depth is found when one may go deeper. -/
theorem treeTo_mono {depth depth' : Nat} (hd : depth ≤ depth') {child : Child} {t : Tree Nat}
    (h : forest.treeTo depth child = some t) : forest.treeTo depth' child = some t := by
  induction depth generalizing depth' child t with
  | zero =>
    cases child with
    | literal v =>
      rw [treeTo] at h ⊢
      exact h
    | node index => cases h
  | succ depth ih =>
    cases child with
    | literal v =>
      rw [treeTo] at h ⊢
      exact h
    | node index =>
      obtain ⟨deeper, rfl⟩ := Nat.exists_eq_add_of_le' (Nat.le_trans (Nat.le_add_left 1 depth) hd)
      obtain ⟨node, children, ts, hn, hts, rfl⟩ := treeTo_node_eq_some h
      have hts' := mapM_mono (fun child t => ih (Nat.le_of_succ_le_succ hd)) hts
      rw [treeTo, hn]
      simp only [Option.bind_eq_bind, Option.bind_some, hts']
      rfl

/-- The node of every number with the trees of its children, down to a depth. -/
def shape (forest : Forest) (depth : Nat) : Shape := fun index =>
  match forest.treeTo depth (.node index) with
  | some (.node _ node children) => (node, children)
  | _ => (⟨.node, fun _ => .null⟩, [])

/-- Every tree that a forest is read as is from the shape of the forest. -/
theorem allFrom_of_treeTo {depth depth' : Nat} (hd : depth ≤ depth') {child : Child} {t : Tree Nat}
    (h : forest.treeTo depth child = some t) : Tree.AllFrom (forest.shape depth') [t] := by
  induction depth generalizing child t with
  | zero =>
    cases child with
    | literal v =>
      cases h
      exact .literal v .nil
    | node index => cases h
  | succ depth ih =>
    cases child with
    | literal v =>
      cases h
      exact .literal v .nil
    | node index =>
      have hself := treeTo_mono hd h
      obtain ⟨node, children, ts, -, hts, rfl⟩ := treeTo_node_eq_some h
      refine .node ?_ ?_ .nil
      · rw [shape, hself]
      · clear hself h
        induction children generalizing ts with
        | nil =>
          cases hts
          exact .nil
        | cons child rest ihr =>
          rw [List.mapM_cons, Option.bind_eq_bind, Option.bind_eq_some_iff] at hts
          obtain ⟨t, ht, hts⟩ := hts
          obtain ⟨us, hus, hts⟩ := Option.bind_eq_some_iff.mp hts
          cases hts
          exact (ih (Nat.le_of_succ_le hd) ht).cons (ihr us hus)

/-- Every tree of a forest is from a shape, whatever nodes are shared in it. -/
theorem allFrom_of_tree? {child : Child} {t : Tree Nat} (h : forest.tree? child = some t) :
    Tree.AllFrom (forest.shape forest.nodes.size) [t] :=
  allFrom_of_treeTo (Nat.le_refl _) h

end Forest

end SceneTree
