import SceneTree.Proofs.Containment.Acceptance
import SceneTree.Proofs.Opacity.Lockstep

/-!
# The veil of the holders

An id that nodes hold belongs to one handle. The veil of an evaluation puts that handle in its place, and in that of the
id of a local variable the handle that holds its second part. Which handle a node has does not depend on ids. So two
evaluations of a tree that both succeed leave documents that are the same under their veils.
-/

namespace SceneTree

namespace Evaluation

variable {e : Evaluation} {mark : Nat} {node : Node} {n : Handle} {id : Value}

/-- The veil that puts the handles which hold the ids in their place. -/
def veil (e : Evaluation) : Veil where
  onId id :=
    match e.ownerOf? id with
    | some n => .int n
    | none => id
  onLocalId function id :=
    match e.owners.find? fun p => id == .str (function.toText ++ "_" ++ p.1.toText) with
    | some p => .int p.2
    | none => id

/-- The marks that were met after some more were reached. -/
def meeting (met marks : List Nat) : List Nat :=
  marks.foldl (fun met mark => if mark ∈ met then met else met ++ [mark]) met

theorem Owned.veil_onId (h : e.Owned) (hi : e.idOf? n = some id) : e.veil.onId id = .int n := by
  simp only [veil, (h.inverse n id).mpr hi]

theorem Owned.veil_null (h : e.Owned) : e.veil.onId .null = .null := by
  cases ho : e.ownerOf? .null with
  | none => simp only [veil, ho]
  | some n =>
    obtain ⟨s, hs⟩ := h.text ((h.inverse n .null).mp ho)
    cases hs

/-- The second part of the id of a local variable is one that a handle holds. -/
theorem Owned.veil_onLocalId (h : e.Owned) (hi : e.idOf? n = some id) (function : Value) :
    e.veil.onLocalId function (.str (function.toText ++ "_" ++ id.toText)) = .int n := by
  obtain ⟨s, rfl⟩ := h.text hi
  have hself : (e.owners.find? fun p => Value.str (function.toText ++ "_" ++ (Value.str s).toText) ==
      .str (function.toText ++ "_" ++ p.1.toText)).isSome :=
    List.find?_isSome.mpr ⟨_, h.mem_owners_iff.mpr hi, Value.str_beq_iff.mpr rfl⟩
  obtain ⟨p, hp⟩ := Option.isSome_iff_exists.mp hself
  have hmem := List.mem_of_find?_eq_some hp
  have heq := List.find?_some hp
  obtain ⟨t, ht⟩ := h.keyed.text p hmem
  -- the first parts agree, and so do the second ones
  have hst : s = t := by
    have htext := Value.str.inj (Value.str_beq_iff.mp heq)
    rw [ht] at htext
    exact (String.append_right_inj _).mp htext.symm
  have hown : e.idOf? p.2 = some (.str s) := h.mem_owners_iff.mp (by rw [hst, ← ht]; exact hmem)
  unfold veil
  simp only [hp]
  rw [h.idOf?_injective hi hown]

/-- The veil of an evaluation covers what was granted in it. -/
theorem Owned.covers (h : e.Owned) (hg : e.Granted mark node) : e.veil.Covers e.grants mark node := by
  obtain ⟨n, hn, hid⟩ := hg
  have hfor : e.handleFor mark = n := by rw [handleFor, hn, Option.getD_some]
  have hheld : node.requestedId?.isSome = true → e.idOf? n = some (e.grants.id mark) := by
    intro hreq
    obtain ⟨authored, hreq⟩ := Option.isSome_iff_exists.mp hreq
    obtain ⟨id, hi, -⟩ := hid authored hreq
    change e.idOf? n = some ((e.idOf? (e.handleFor mark)).getD .null)
    rw [hfor, hi, Option.getD_some]
  have hhandle : Value.int (e.grants.handle mark) = .int n := congrArg (fun n : Handle => Value.int n) hfor
  refine ⟨fun hreq => (h.veil_onId (hheld hreq)).trans hhandle.symm, fun hk function => ?_⟩
  refine (h.veil_onLocalId (hheld ?_) function).trans hhandle.symm
  unfold Node.requestedId?
  rw [hk]
  rfl

end Evaluation

namespace Evaluating

variable {scope : NodeScope} {forest : List (Tree Nat)} {e e' : Evaluation} {tree : Tree Nat}
  {supply supply' : IdSupply} {notice notice' : Notice}

/-- The nodes that an evaluation with success meets are those of its trees in their order. -/
theorem Evaluates.met_eq (h : Evaluates scope forest e e') :
    e'.met = Evaluation.meeting e.met (Tree.marksOf forest) := by
  have hvisit : ∀ {mark node literals scope out} {e e₁ : Evaluation},
      visit mark node literals scope e = (.ok out, e₁) → e₁.met = Evaluation.meeting e.met [mark] := by
    intro mark node literals scope out e e₁ hv
    rw [met_of_visit_eq_ok hv]
    unfold Evaluation.meeting
    rw [List.foldl_cons, List.foldl_nil]
    cases hm : e.handle? mark with
    | none => rw [Evaluation.met_enter_of_not_mem hm, if_neg (List.idxOf?_eq_none_iff.mp hm)]
    | some n =>
      rw [Evaluation.met_enter_of_handle? hm, if_pos]
      by_contra hno
      have hnone : e.handle? mark = none := List.idxOf?_eq_none_iff.mpr hno
      rw [hm] at hnone
      cases hnone
  have happend : ∀ met marks marks', Evaluation.meeting met (marks ++ marks') =
      Evaluation.meeting (Evaluation.meeting met marks) marks' := fun _ _ _ => List.foldl_append
  induction h with
  | nil => rfl
  | literal v _ ih => exact ih
  | @leaf _ mark _ children rest _ _ _ hv hc _ ih =>
    have hnone : Tree.marksOf children = [] := by rw [Tree.marksOf, hc]; rfl
    rw [ih, hvisit hv, Tree.marksOf_node, hnone, ← happend]
    rfl
  | @branch _ _ mark _ children rest _ _ _ _ hv _ _ ihc ihr =>
    rw [ihr, ihc, hvisit hv, Tree.marksOf_node, ← happend, ← happend]
    rfl

/-- Some object of a tree is selected that has a handle. -/
def SelectedIn (tree : Tree Nat) (e : Evaluation) (n : Handle) : Prop :=
  ∃ m ∈ tree.nodes, m.2.kind.isObject = true ∧ (m.2.get .selected).truthy = true ∧ e.handle? m.1 = some n

/-- Two evaluations of a tree that both succeed meet the same nodes in the same order and leave documents that are the
same under their veils. -/
theorem alike_of_begun (data : Nat → Node) (hs : ∀ n ∈ tree.nodes, n.2 = data n.1 ∧ n.2.AuthorsText)
    (h : evaluate tree .root (begun supply notice) = (.ok (), e))
    (h' : evaluate tree .root (begun supply' notice') = (.ok (), e')) :
    e.met = e'.met ∧ e.document.Alike (SelectedIn tree e) e.veil e'.veil e'.document := by
  have hnodes : Tree.nodesOf [tree] = tree.nodes := List.append_nil _
  have hall : ∀ n ∈ Tree.nodesOf [tree], n.2 = data n.1 ∧ n.2.AuthorsText := hnodes.symm ▸ hs
  have hbegun : ∀ supply notice, (begun supply notice).Owned := fun supply notice => (ready_begun supply notice).owned
  have hevaluates := evaluates_of_evaluate tree h
  have hevaluates' := evaluates_of_evaluate tree h'
  obtain ⟨-, ho, hgranted⟩ := hevaluates.settles hall (hbegun _ _)
  obtain ⟨-, ho', hgranted'⟩ := hevaluates'.settles hall (hbegun _ _)
  have hmet : e.met = e'.met := hevaluates.met_eq.trans hevaluates'.met_eq.symm
  refine ⟨hmet, ?_⟩
  have hhandle : ∀ mark, e.grants.handle mark = e'.grants.handle mark := by
    intro mark
    change e.handleFor mark = e'.handleFor mark
    unfold Evaluation.handleFor Evaluation.handle?
    rw [hmet]
  have hpair : ∀ n ∈ tree.nodes, e.grants.Pair (SelectedIn tree e) e.veil e'.veil e'.grants n.1 n.2 := by
    intro n hn
    have hgrant := hgranted n (hnodes.symm ▸ hn)
    refine ⟨hhandle n.1, ho.covers hgrant, ho'.covers (hgranted' n (hnodes.symm ▸ hn)), fun hk => ⟨?_, fun hsel => ?_⟩⟩
    · rintro ⟨m, hm, -, hselected, hhandle⟩
      -- the object that is selected has the handle of the node, and is the node
      have hmark : n.1 = m.1 := Evaluation.eq_of_handleFor_eq ho.met rfl hhandle
      rw [(hs n hn).1, hmark, ← (hs m hm).1]
      exact hselected
    · obtain ⟨k, hk', -⟩ := hgrant
      have hfor : e.grants.handle n.1 = k := by
        change e.handleFor n.1 = k
        rw [Evaluation.handleFor, hk', Option.getD_some]
      exact ⟨n, hn, hk, hsel, hfor ▸ hk'⟩
  have hempty : Document.empty.Alike (SelectedIn tree e) e.veil e'.veil Document.empty :=
    ⟨(Document.veiled_empty _).trans (Document.veiled_empty _).symm, .inl ⟨rfl, fun p hp => absurd hp List.not_mem_nil⟩⟩
  have hroot : e.veil.onScope .root = e'.veil.onScope .root := by rw [Veil.onScope_root, Veil.onScope_root]
  exact alike_furnish tree ho.veil_null ho'.veil_null hpair hroot hempty
    (furnish_of_evaluate tree hs (hbegun _ _) h (.refl data e))
    (furnish_of_evaluate tree hs (hbegun _ _) h' (.refl data e'))

end Evaluating

end SceneTree
