import Mathlib.Data.List.Forall2
import SceneTree.Proofs.Refiling.Frames
import SceneTree.Proofs.Refiling.Shelves

/-!
# Evaluating nodes again

An evaluation files every node that it handles anew. When it is over, each shelf has the entries of the nodes that were
not handled, as they were, and then one entry for each node that was, in the order in which they were handled last. This
holds whether the evaluation succeeds or ends with a fault of the tree, and however often a node occurs in the tree or
was evaluated before.
-/

namespace SceneTree

namespace Evaluation

/-- An entry is that of a node that is not among some nodes. -/
def spares (e : Evaluation) (done : List (Nat × Node)) (p : Handle × Filing) : Bool :=
  e.met[p.1]?.all fun mark => done.all fun c => !(mark == c.1)

/-- An entry is that of a node: it stands under the handle of the node and is what the node says, with the id that the
handle keeps if nodes of its kind have one. -/
def Files (e : Evaluation) (c : Nat × Node) (p : Handle × Filing) : Prop :=
  e.met[p.1]? = some c.1 ∧
    ∃ id, (c.2.requestedId?.isSome → e.idOf? p.1 = some id) ∧ e.document.Carries c.2 id p.2

/-- The nodes among some that are filed on a shelf. -/
def filedOn (s : Shelf) (done : List (Nat × Node)) : List (Nat × Node) :=
  done.filter fun c => c.2.kind.shelf? == some s

variable {e e' : Evaluation} {done : List (Nat × Node)} {c : Nat × Node} {p : Handle × Filing}

theorem spares_append (c : Nat × Node) :
    e.spares (done ++ [c]) p = (e.spares done p && e.met[p.1]?.all fun mark => !(mark == c.1)) := by
  unfold spares
  cases e.met[p.1]? with
  | none => rfl
  | some mark => simp only [Option.all_some, List.all_append, List.all_cons, List.all_nil, Bool.and_true]

/-- The entry of a node stays its entry when other nodes are visited. -/
theorem Files.later (h : e.Files c p) (hm : e.met <+: e'.met) (hi : e'.idOf? p.1 = e.idOf? p.1)
    (hl : e.document.Later e'.document) : e'.Files c p := by
  obtain ⟨hmet, id, hid, hcarries⟩ := h
  obtain ⟨rest, hrest⟩ := hm
  refine ⟨?_, id, fun hr => hi.trans (hid hr), hcarries.later hl⟩
  rw [← hrest, List.getElem?_append_left (List.getElem?_eq_some_iff.mp hmet).1]
  exact hmet

end Evaluation

namespace Evaluating

variable {kinds : Nat → Kind} {scope : NodeScope} {e e' : Evaluation} {done : List (Nat × Node)}

/-- The state that the handling of some nodes, which an evaluation in a scope begins with, makes of a state. -/
structure Refiled (kinds : Nat → Kind) (scope : NodeScope) (e : Evaluation) (done : List (Nat × Node))
    (e' : Evaluation) : Prop where
  shelved : Shelved kinds e'.met e'.document
  met : e.met <+: e'.met
  kind : ∀ c ∈ done, c.2.kind = kinds c.1
  later : e.document.Later e'.document
  undisturbed : e.document.Undisturbed scope e'.document
  shelves : ∀ s, ∃ added,
    (e'.document.shelf s).entries = (e.document.shelf s).entries.filter (e.spares done) ++ added ∧
      List.Forall₂ e'.Files (Roster.latest (Evaluation.filedOn s done)) added

/-- Nothing has been handled at the beginning. -/
theorem Refiled.refl (h : Shelved kinds e.met e.document) (scope : NodeScope) : Refiled kinds scope e [] e where
  shelved := h
  met := List.prefix_refl _
  kind := List.forall_mem_nil _
  later := .refl _
  undisturbed := .refl _ _
  shelves := by
    intro s
    refine ⟨[], ?_, .nil⟩
    rw [List.append_nil]
    refine (List.filter_eq_self.mpr fun p _ => ?_).symm
    cases he : e.met[p.1]? <;> simp [Evaluation.spares, he]

/-- Handles are the same just when they are those of one node. -/
theorem beq_handle {met : List Nat} (h : met.Nodup) {n n' mark mark' : Nat} (hn : met[n]? = some mark)
    (hn' : met[n']? = some mark') : (mark == mark') = (n == n') := by
  rw [Bool.eq_iff_iff, beq_iff_eq, beq_iff_eq, ← List.getElem?_inj (List.getElem?_eq_some_iff.mp hn).1 h, hn, hn',
    Option.some_inj]

/-- The id that a node was granted is the one that its handle keeps. -/
theorem idOf?_of_request_self {node : Node} {handle : Handle} {id : Value}
    (h : request node handle e = (.ok id, e')) (hr : node.requestedId?.isSome) : e'.idOf? handle = some id := by
  obtain ⟨authored, ha⟩ := Option.isSome_iff_exists.mp hr
  rw [request, ha] at h
  rw [idOf?_of_instanceId_eq_ok h, if_pos rfl]

/-- What the handling of a node does: the node has a handle and keeps it, the ids of other handles stay, and the
contribution of the node has an effect. -/
structure Handled (kinds : Nat → Kind) (e : Evaluation) (mark : Nat) (node : Node) (n : Handle) (scope : NodeScope)
    (out : Option NodeScope) (e' : Evaluation) : Prop where
  shelved : Shelved kinds e'.met e'.document
  grows : e.met <+: e'.met
  handle : e'.met[n]? = some mark
  others : ∀ m, m ≠ n → e'.idOf? m = e.idOf? m
  effect : ∃ b, Effect scope n e.document b out e'.document ∧ b.node = node ∧
    (node.requestedId?.isSome → e'.idOf? n = some b.id)

/-- A visit that succeeds handles its node. -/
theorem handled_of_visit {mark : Nat} {node : Node} {literals : List Value} {out : Option NodeScope}
    (h : Shelved kinds e.met e.document) (hk : node.kind = kinds mark)
    (hv : visit mark node literals scope e = (.ok out, e')) :
    Handled kinds e mark node (e.handleFor mark) scope out e' := by
  obtain ⟨id, e₀, hr, heffect, he'⟩ := effect_of_visit hv
  have hmet : e'.met = (e.enter mark node).met := by
    have hmet := met_request node (e.handleFor mark) (e.enter mark node)
    rw [hr] at hmet
    rw [he']
    exact hmet
  have hids : ∀ n, e'.idOf? n = e₀.idOf? n := by
    intro n
    rw [he']
    rfl
  refine ⟨?_, hmet ▸ e.met_enter mark node, hmet ▸ e.getElem?_met_enter h.distinct mark node,
    fun n hn => (hids n).trans (idOf?_of_request_eq_ok hr hn), _, heffect, rfl,
    fun hrequested => (hids _).trans (idOf?_of_request_self hr hrequested)⟩
  have hshelved := shelved_visit h hk literals scope
  rwa [hv] at hshelved

section

variable {mark : Nat} {node : Node} {n : Handle} {inner : NodeScope} {out : Option NodeScope} {s : Shelf}
  {e₁ : Evaluation}

/-- The later document of a handling. -/
theorem Handled.later (h : Handled kinds e mark node n scope out e') : e.document.Later e'.document := by
  obtain ⟨_, heffect, -⟩ := h.effect
  exact heffect.later

/-- A handle that was there is that of the node just when it belongs to the node. -/
theorem Handled.beq_mark (h : Handled kinds e mark node n scope out e') {n' mark' : Nat}
    (hn : e.met[n']? = some mark') : (mark' == mark) = (n' == n) := by
  refine beq_handle h.shelved.distinct ?_ h.handle
  obtain ⟨rest, hrest⟩ := h.grows
  rw [← hrest, List.getElem?_append_left (List.getElem?_eq_some_iff.mp hn).1]
  exact hn

/-- The entries of the other nodes stay their entries. -/
theorem Handled.files (h : Handled kinds e mark node n scope out e') {cs : List (Nat × Node)}
    {ps : List (Handle × Filing)} (hfiles : List.Forall₂ e.Files cs ps) (hcs : ∀ c ∈ cs, c.1 ≠ mark) :
    List.Forall₂ e'.Files cs ps := by
  refine ((List.forall₂_and_left cs ps).mpr ⟨hcs, hfiles⟩).imp fun c p ⟨hne, hf⟩ => ?_
  refine hf.later h.grows (h.others p.1 ?_) h.later
  have hbeq := h.beq_mark hf.1
  rw [beq_eq_false_iff_ne.mpr hne] at hbeq
  exact beq_eq_false_iff_ne.mp hbeq.symm

/-- A shelf on which the node is not filed has the entries that it had. -/
theorem Handled.shelf_of_ne (h : Handled kinds e mark node n scope out e') (hp : node.kind ≠ .project)
    (hs : node.kind.shelf? ≠ some s) : e'.document.shelf s = e.document.shelf s := by
  obtain ⟨b, heffect, rfl, -⟩ := h.effect
  exact heffect.shelf_of_ne hp hs

/-- The shelf on which the node is filed has the other entries that it had and then the entry of the node. -/
theorem Handled.shelf_of_eq (h : Handled kinds e mark node n scope out e') (hd : (e.document.shelf s).tokens.Nodup)
    (hs : node.kind.shelf? = some s) :
    ∃ filing, (e'.document.shelf s).entries =
        (e.document.shelf s).entries.filter (fun p => !(p.1 == n)) ++ [(n, filing)] ∧
      e'.Files (mark, node) (n, filing) := by
  obtain ⟨b, heffect, rfl, hid⟩ := h.effect
  obtain ⟨filing, hshelf, -, hcarries⟩ := heffect.shelf_of_eq hs
  exact ⟨filing, by rw [hshelf, Roster.entries_insert_of_nodup hd], h.handle, b.id, hid, hcarries⟩

/-- One more node is handled. -/
theorem Refiled.handled (h : Refiled kinds scope e done e') (hstart : Shelved kinds e.met e.document)
    (hh : Handled kinds e' mark node n inner out e₁) (hp : node.kind ≠ .project) (hk : node.kind = kinds mark)
    (hc : scope.Confined e.document inner) : Refiled kinds scope e (done ++ [(mark, node)]) e₁ := by
  refine ⟨hh.shelved, h.met.trans hh.grows, ?_, h.later.trans hh.later, ?_, fun s => ?_⟩
  · exact List.forall_mem_append.mpr ⟨h.kind, List.forall_mem_singleton.mpr hk⟩
  · obtain ⟨_, heffect, -⟩ := hh.effect
    exact h.undisturbed.trans h.later hc heffect.undisturbed
  obtain ⟨added, hentries, hadded⟩ := h.shelves s
  -- The entries that were there at the start, with the nodes that they are of.
  have hold : ∀ p ∈ (e.document.shelf s).entries, ∃ m, e.met[p.1]? = some m ∧ (kinds m).shelf? = some s ∧
      (m == mark) = (p.1 == n) := by
    intro p hmem
    obtain ⟨m, hm, hs⟩ := hstart.kind s p hmem
    refine ⟨m, hm, hs, hh.beq_mark ?_⟩
    obtain ⟨rest, hrest⟩ := h.met
    rw [← hrest, List.getElem?_append_left (List.getElem?_eq_some_iff.mp hm).1]
    exact hm
  by_cases hs : node.kind.shelf? = some s
  · obtain ⟨filing, hshelf, hfiles⟩ := hh.shelf_of_eq (h.shelved.tokens s) hs
    have hfiled : Evaluation.filedOn s (done ++ [(mark, node)]) = Evaluation.filedOn s done ++ [(mark, node)] := by
      simp [Evaluation.filedOn, List.filter_append, hs]
    refine ⟨added.filter (fun p => !(p.1 == n)) ++ [(n, filing)], ?_, ?_⟩
    · rw [hshelf, hentries, List.filter_append, List.filter_filter, List.append_assoc]
      congr 1
      refine List.filter_congr fun p hmem => ?_
      obtain ⟨m, hm, -, hbeq⟩ := hold p hmem
      rw [Evaluation.spares_append, hm, Option.all_some, hbeq, Bool.and_comm]
    · rw [hfiled, Roster.latest_append]
      refine List.rel_append (hh.files (List.rel_filter (fun c p hf => ?_) hadded) ?_) (.cons hfiles .nil)
      · show (!(c.1 == mark)) = true ↔ (!(p.1 == n)) = true
        rw [hh.beq_mark hf.1]
      · exact fun c hc => by simpa using (List.mem_filter.mp hc).2
  · have hfiled : Evaluation.filedOn s (done ++ [(mark, node)]) = Evaluation.filedOn s done := by
      simp [Evaluation.filedOn, List.filter_append, hs]
    refine ⟨added, ?_, ?_⟩
    · rw [hh.shelf_of_ne hp hs, hentries]
      congr 1
      refine List.filter_congr fun p hmem => ?_
      obtain ⟨m, hm, hkind, -⟩ := hold p hmem
      have hne : m ≠ mark := by
        rintro rfl
        exact hs (hk ▸ hkind)
      rw [Evaluation.spares_append, hm, Option.all_some, beq_eq_false_iff_ne.mpr hne, Bool.not_false, Bool.and_true]
    · rw [hfiled]
      refine hh.files hadded fun c hmem hmark => hs ?_
      obtain ⟨hdone, hkind⟩ := List.mem_filter.mp (Roster.mem_of_mem_latest hmem)
      rw [hk, ← hmark, ← h.kind c hdone]
      exact beq_iff_eq.mp hkind

/-- A node that has only been reached changes nothing of this. -/
theorem Refiled.enter (h : Refiled kinds scope e done e') (mark : Nat) (node : Node) :
    Refiled kinds scope e done (e'.enter mark node) := by
  have hgrows := e'.met_enter mark node
  refine ⟨h.shelved.of_prefix hgrows (e'.nodup_met_enter h.shelved.distinct mark node), h.met.trans hgrows, h.kind,
    h.later, h.undisturbed, fun s => ?_⟩
  obtain ⟨added, hentries, hadded⟩ := h.shelves s
  exact ⟨added, hentries, hadded.imp fun _ _ hf => hf.later hgrows rfl (.refl _)⟩

end

variable {tree : Tree Nat} {outcome : Except Fault Unit}

/-- An evaluation that succeeds, or ends with a fault of the tree, has refiled the nodes of the occurrences that it
handled: all of the tree, or those before the one at fault. -/
theorem refiled_of_evaluate (hstart : Shelved kinds e.met e.document)
    (hn : ∀ n ∈ tree.nodes, n.2.kind ≠ .project ∧ n.2.kind = kinds n.1)
    (hf : ∀ fault, outcome = .error fault → fault.isCompile = true) (h : evaluate tree scope e = (outcome, e')) :
    ∃ n agenda e₀, follow n [⟨tree, .root scope⟩] e = (.ok agenda, e₀) ∧
      (outcome = .ok () ∧ agenda = [] ∧ (tree.preorder.take n).filterMap Tree.top? = tree.nodes ∨
        ∃ fault o rest, outcome = .error fault ∧ agenda = o :: rest ∧ tree.preorder[n]? = some o.tree ∧
          (o.handle e₀).1 = .error fault) ∧
      Refiled kinds scope e ((tree.preorder.take n).filterMap Tree.top?) e' := by
  have hrun {n : Nat} {agenda : List Occurrence} {e₀ : Evaluation}
      (h : follow n [⟨tree, .root scope⟩] e = (.ok agenda, e₀)) :
      Refiled kinds scope e ((tree.preorder.take n).filterMap Tree.top?) e₀ := by
    have hkeeps := follow_keeps (I := Refiled kinds scope e) (S := scope.Confined e.document)
      (P := fun c => c.2.kind ≠ .project ∧ c.2.kind = kinds c.1) ?_ (List.forall_mem_singleton.mpr hn) ?_
      (.refl hstart scope) h
    · rwa [List.map_singleton, Tree.preorderOf, Tree.preorderOf, List.append_nil, List.nil_append] at hkeeps
    · intro mark node literals inner done e' out e₁ hc hs hr hv
      have hh := handled_of_visit hr.shelved hc.2 hv
      refine ⟨hr.handled hstart hh hc.1 hc.2 hs, fun below hout => ?_⟩
      obtain ⟨_, heffect, -⟩ := hh.effect
      exact heffect.confined hs hr.later hout
    · rintro o ho node scope' hscope
      obtain rfl := List.mem_singleton.mp ho
      cases hscope
      exact .refl scope e.document
  have hfollow := follow_root tree scope e
  rw [h] at hfollow
  cases outcome with
  | ok _ =>
    refine ⟨tree.preorder.length, [], e', hfollow, .inl ⟨rfl, rfl, ?_⟩, hrun hfollow⟩
    rw [List.take_length, Tree.filterMap_preorder]
  | error fault =>
    obtain ⟨n, o, rest, e₀, hprefix, ho⟩ := exists_of_follow_eq_error hfollow
    have hnext := getElem?_preorder_of_follow hprefix
    refine ⟨n, o :: rest, e₀, hprefix, .inr ⟨fault, o, rest, rfl, rfl, hnext, congrArg Prod.fst ho⟩, ?_⟩
    rcases Occurrence.eq_of_handle_eq_error ho (hf fault rfl) with rfl | ⟨mark, node, -, -, rfl⟩
    · exact hrun hprefix
    · exact (hrun hprefix).enter mark node

/-- After a tree without projects has been evaluated in some state and scope, with success or up to a fault of the tree,
every shelf has the entries that it had of nodes that were not handled, in their order, and behind these one entry for
each node of its kind that was handled with success, in the order of the last handlings and with what the node says now.
What is filed of the nodes that were not handled is as it was: only an object or a function that the scope binds can
have other pictures, sounds or local variables and show another picture, and only two places that the scope binds can
collect other parts of scripts. -/
theorem evaluate_refiles (hreached : Reached kinds e)
    (hn : ∀ n ∈ tree.nodes, n.2.kind ≠ .project ∧ n.2.kind = kinds n.1)
    (hf : ∀ fault, outcome = .error fault → fault.isCompile = true) (h : evaluate tree scope e = (outcome, e')) :
    ∃ n agenda e₀, follow n [⟨tree, .root scope⟩] e = (.ok agenda, e₀) ∧
      (outcome = .ok () ∧ agenda = [] ∧ (tree.preorder.take n).filterMap Tree.top? = tree.nodes ∨
        ∃ fault o rest, outcome = .error fault ∧ agenda = o :: rest ∧ tree.preorder[n]? = some o.tree ∧
          (o.handle e₀).1 = .error fault) ∧
      (∀ s, (e'.document.shelf s).tokens.Nodup ∧ ∃ added,
        (e'.document.shelf s).entries =
            (e.document.shelf s).entries.filter (e.spares ((tree.preorder.take n).filterMap Tree.top?)) ++ added ∧
          List.Forall₂ e'.Files
            (Roster.latest (Evaluation.filedOn s ((tree.preorder.take n).filterMap Tree.top?))) added) ∧
      (∀ s, ∀ p ∈ (e.document.shelf s).entries, e.document.Holds p.2) ∧ e.document.Later e'.document ∧
      e.document.Undisturbed scope e'.document := by
  have hstart := hreached.shelved
  obtain ⟨n, agenda, e₀, hprefix, hends, hr⟩ := refiled_of_evaluate hstart hn hf h
  exact ⟨n, agenda, e₀, hprefix, hends, fun s => ⟨hr.shelved.tokens s, hr.shelves s⟩, hstart.holds, hr.later,
    hr.undisturbed⟩

/-- A node of a kind with a name and nothing else. -/
def namedNode (kind : Kind) (name : String) : Node := ⟨kind, fun field => if field = .name then .str name else .null⟩

/-- A scene and two messages. -/
def twoMessages : Tree Nat :=
  .node 0 (namedNode .fragment "") [.node 1 (namedNode .scene "s") [], .node 2 (namedNode .message "m") [],
    .node 3 (namedNode .message "n") []]

/-- The first of the messages by another name, before and after a new one, and then a picture, which cannot stand
there. -/
def messageAgain : Tree Nat :=
  .node 6 (namedNode .fragment "") [.node 2 (namedNode .message "o") [], .node 4 (namedNode .message "p") [],
    .node 2 (namedNode .message "o") [], .node 5 (namedNode .picture "q") [], .node 3 (namedNode .message "r") []]

theorem evaluate_refiles_messageAgain :
    let kinds (mark : Nat) : Kind :=
      if mark = 1 then .scene else if mark = 5 then .picture else if mark = 0 ∨ mark = 6 then .fragment else .message
    let scope : NodeScope := Scope.empty.bind .project (some ())
    let e := (evaluate twoMessages scope (.start ⟨.empty, .counting []⟩)).2
    let e' := (evaluate messageAgain scope e).2
    Reached kinds e ∧ (∀ n ∈ messageAgain.nodes, n.2.kind ≠ .project ∧ n.2.kind = kinds n.1) ∧
      (∃ fault, evaluate messageAgain scope e = (.error fault, e') ∧ fault.isCompile = true) ∧
      e.document.messages.tokens = [2, 3] ∧ e'.document.messages.tokens = [3, 5, 2] ∧
      ∃ n, ∀ s, ∃ added,
        (e'.document.shelf s).entries =
            (e.document.shelf s).entries.filter (e.spares ((messageAgain.preorder.take n).filterMap Tree.top?)) ++
              added ∧
          List.Forall₂ e'.Files
            (Roster.latest (Evaluation.filedOn s ((messageAgain.preorder.take n).filterMap Tree.top?))) added := by
  intro kinds scope e e'
  have hreached : Reached kinds e := .evaluate twoMessages scope (.start _) (by decide)
  have hn : ∀ n ∈ messageAgain.nodes, n.2.kind ≠ .project ∧ n.2.kind = kinds n.1 := by decide
  have htokens : e.document.messages.tokens = [2, 3] := by decide +kernel
  have htokens' : e'.document.messages.tokens = [3, 5, 2] := by decide +kernel
  have hfails : (match (evaluate messageAgain scope e).1 with
      | .ok _ => false
      | .error fault => fault.isCompile) = true := by
    decide +kernel
  have hpair {run : Except Fault Unit × Evaluation} {fault : Fault} (h : run.1 = .error fault) :
      run = (.error fault, run.2) := Prod.ext h rfl
  obtain ⟨fault, h, hfault⟩ : ∃ fault, evaluate messageAgain scope e = (.error fault, e') ∧ fault.isCompile = true := by
    generalize hfirst : (evaluate messageAgain scope e).1 = outcome at hfails
    cases outcome with
    | error fault => exact ⟨fault, hpair hfirst, hfails⟩
    | ok _ => cases hfails
  -- From here on it does not matter how the states came about.
  clear_value e e'
  obtain ⟨n, _, _, -, -, hshelves, -⟩ :=
    evaluate_refiles hreached hn (fun _ hf => Except.error.inj hf ▸ hfault) h
  exact ⟨hreached, hn, ⟨fault, h, hfault⟩, htokens, htokens', n, fun s => (hshelves s).2⟩

end Evaluating

end SceneTree
