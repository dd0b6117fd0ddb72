import SceneTree.Proofs.Integrity.Intact
import SceneTree.Proofs.Repetition.Furnishing
import SceneTree.Proofs.Repetition.Sight

/-!
# Projects that are evaluated again

Nothing that a document held matters when a project begins to fill it, and nothing that nodes get in the first
evaluation of a project is taken from them or given to them anew in a second one. So the second evaluation succeeds like
the first, draws nothing, and leaves everything as it was: handles, ids, their owners, the ids in use, the projects on
record, and the looks of the document.
-/

namespace SceneTree

section

variable {scope : NodeScope} {n : Handle} {doc doc' : Document} {b : Branch} {out : Option NodeScope}

/-- Only projects are put on record. -/
theorem Effect.populatedBy_eq (h : Effect scope n doc b out doc') (hk : b.kind ≠ .project) :
    doc'.populatedBy = doc.populatedBy := by
  cases h with
  | project hk' => exact absurd hk' hk
  | _ => rfl

end

/-- Nothing is in the places of a blank document. -/
theorem Document.Homed.blank (record : List Handle) : (Document.blank record).Homed [] where
  size := rfl
  blocks := fun h => by cases h
  contents := fun h => by cases h
  places := fun h => absurd h List.not_mem_nil
  references := fun h => absurd h List.not_mem_nil

/-- No place is bound at the root. -/
theorem NodeScope.HomedIn.root : NodeScope.root.HomedIn [] where
  statements := fun p hp => by cases hp
  params := fun p hp => by cases hp

namespace Evaluating

variable {scope : NodeScope} {forest : List (Tree Nat)} {e e₁ e' : Evaluation} {homes : List (Option Nat)}

/-- While no project is evaluated, none is put on record. -/
theorem Evaluates.populatedBy_eq (h : Evaluates scope forest e e')
    (hk : ∀ n ∈ Tree.nodesOf forest, n.2.kind ≠ .project) : e'.document.populatedBy = e.document.populatedBy :=
  h.keeps (I := fun doc => doc.populatedBy = e.document.populatedBy) (P := fun node => node.kind ≠ .project)
    (fun heffect hk hrecord => (heffect.populatedBy_eq hk).trans hrecord) hk rfl

/-- Places that belong to objects still do after an evaluation, and new ones do as well. -/
theorem Evaluates.homed (h : Evaluates scope forest e e') (hd : e.document.Homed homes) (hs : scope.HomedIn homes) :
    ∃ more, e'.document.Homed (homes ++ more) := by
  induction h generalizing homes with
  | nil => exact ⟨[], by rw [List.append_nil]; exact hd⟩
  | literal v _ ih => exact ih hd hs
  | leaf hv _ _ ih =>
    obtain ⟨id, -, -, heffect, -⟩ := effect_of_visit hv
    obtain ⟨more, hd₁, -⟩ := heffect.homed hd hs
    obtain ⟨later, hd'⟩ := ih hd₁ (hs.append more)
    exact ⟨more ++ later, by rw [← List.append_assoc]; exact hd'⟩
  | branch hv _ _ ihc ihr =>
    obtain ⟨id, -, -, heffect, -⟩ := effect_of_visit hv
    obtain ⟨more, hd₁, hinner⟩ := heffect.homed hd hs
    obtain ⟨below, hd₂⟩ := ihc hd₁ (hinner _ rfl)
    rw [List.append_assoc] at hd₂
    obtain ⟨later, hd'⟩ := ihr hd₂ (hs.append (more ++ below))
    exact ⟨more ++ below ++ later, by rw [← List.append_assoc]; exact hd'⟩

section

variable {mark : Nat} {node : Node} {children : List (Tree Nat)} {supply : IdSupply}
  {doc : Document}

/-- A project that is admitted begins to fill a document. -/
theorem visit_project (hk : node.kind = .project) (literals : List Value) (e : Evaluation) (doc : Document) :
    visit mark node literals .root { e with document := doc } =
      match admission node literals .root .empty with
      | .error fault => (.error fault, { e.enter mark node with document := doc })
      | .ok () =>
        (.ok (some (NodeScope.root.bind .project (some ()))),
          { e.enter mark node with document := doc.populate node.projectHead (e.handleFor mark) }) := by
  have hadmission : admission node literals .root doc = admission node literals .root .empty := by
    unfold admission
    rw [hk]
  have hrequest : ∀ e', request node (e.handleFor mark) e' = (.ok .null, e') := by
    intro e'
    unfold request Node.requestedId?
    rw [hk]
    rfl
  have hcontribute : contribute node literals .root (e.handleFor mark) .null doc =
      (.ok (some (NodeScope.root.bind .project (some ()))), doc.populate node.projectHead (e.handleFor mark)) := by
    unfold contribute
    rw [hk]
  have hfor : ({ e with document := doc } : Evaluation).handleFor mark = e.handleFor mark := rfl
  have henter : ({ e with document := doc } : Evaluation).enter mark node =
      { e.enter mark node with document := doc } := rfl
  rw [visit_apply, staged_apply, hfor, henter]
  simp only [hadmission]
  cases admission node literals .root .empty with
  | error fault => rfl
  | ok _ => simp only [hrequest, hcontribute]

/-- A project is evaluated in a document as in a blank one, which then stands behind the document. -/
theorem evaluate_project_iff (hk : node.kind = .project) :
    evaluate (.node mark node children) .root { e with document := doc } = (.ok (), e₁) ↔
      ∃ e', evaluate (.node mark node children) .root { e with document := .blank doc.populatedBy } = (.ok (), e') ∧
        e₁ = e'.behind doc := by
  simp only [evaluate_node, Attempt.bind_apply, visit_project hk]
  cases admission node (Tree.literals children) .root .empty with
  | error fault => simp
  | ok _ =>
    have hscope : doc.base.scope (NodeScope.root.bind .project (some ())) = NodeScope.root.bind .project (some ()) := by
      rw [Base.scope_bind, Base.scope_root]
      rfl
    have hchildren := behind_evaluateChildren doc node (some (NodeScope.root.bind .project (some ()))) children
      { e.enter mark node with
        document := (Document.blank doc.populatedBy).populate node.projectHead (e.handleFor mark) }
    rw [Option.map_some, hscope] at hchildren
    simp only [Document.populate_eq_behind doc]
    rw [Evaluation.behind] at hchildren
    rw [hchildren]
    rcases evaluateChildren node (some (NodeScope.root.bind .project (some ()))) children
      { e.enter mark node with
        document := (Document.blank doc.populatedBy).populate node.projectHead (e.handleFor mark) } with ⟨_ | _, e'⟩
    · simp
    · simp [eq_comm]

/-- In the document that a project has been evaluated in, it is the last one on record unless it was before. -/
theorem populatedBy_of_evaluate (hk : node.kind = .project) (hone : ∀ n ∈ Tree.nodesOf children, n.2.kind ≠ .project)
    (h : evaluate (.node mark node children) .root { e with document := doc } = (.ok (), e₁)) :
    e₁.document.populatedBy = (doc.populate node.projectHead (e.handleFor mark)).populatedBy := by
  rw [evaluate_node] at h
  obtain ⟨out, e', hv, h⟩ := Attempt.bind_eq_ok_iff.mp h
  rw [visit_project hk] at hv
  cases ha : admission node (Tree.literals children) .root .empty with
  | error fault =>
    rw [ha] at hv
    cases hv
  | ok _ =>
    rw [ha] at hv
    cases hv
    exact (evaluates_of_evaluateChildren children h).populatedBy_eq hone

/-- A node that is evaluated has its handle from then on. -/
theorem handleFor_of_evaluate {data : Nat → Node}
    (hs : ∀ n ∈ (Tree.node mark node children).nodes, n.2 = data n.1 ∧ n.2.AuthorsText) (ho : e.Owned)
    (h : evaluate (.node mark node children) scope e = (.ok (), e')) : e'.handleFor mark = e.handleFor mark := by
  rw [Tree.nodes, List.forall_mem_cons] at hs
  rw [evaluate_node] at h
  obtain ⟨out, e₁, hv, h⟩ := Attempt.bind_eq_ok_iff.mp h
  have ho₁ := owned_visit ho mark hs.1.2 (Tree.literals children) scope
  rw [hv] at ho₁
  obtain ⟨-, -, hhandle⟩ := settles_visit ho hs.1.1 hv
  have hsettles := (furnishAll_of_evaluateChildren children hs.2 ho₁ h (.refl data e')).1
  rw [Evaluation.handleFor, hsettles.handle? hhandle, Option.getD_some]

/-- A project that is on record goes into a blank document as it went when it was not. -/
theorem furnish_project {grants : Grants} (hk : node.kind = .project) {record record' : List Handle}
    (hr : ((Document.blank record).populate node.projectHead (grants.handle mark)).populatedBy = record')
    (h : furnish grants (.node mark node children) .root (.blank record) = (.ok (), doc)) :
    furnish grants (.node mark node children) .root (.blank record') = (.ok (), doc) := by
  have hpopulate : (Document.blank record').populate node.projectHead (grants.handle mark) =
      (Document.blank record).populate node.projectHead (grants.handle mark) := by
    have hrecord : (if record'.contains (grants.handle mark) = true then record'
        else record' ++ [grants.handle mark]) = record' := by
      refine if_pos (List.contains_iff_mem.mpr ?_)
      rw [← hr]
      unfold Document.populate
      simp only
      split
      · next hc => exact List.contains_iff_mem.mp hc
      · exact List.mem_append_right _ (List.mem_singleton_self _)
    have hsame : (if record.contains (grants.handle mark) = true then record
        else record ++ [grants.handle mark]) = record' := hr
    exact congrArg (fun record => ({ Document.empty with head := node.projectHead, populatedBy := record } : Document))
      (hrecord.trans hsame.symm)
  rw [furnish] at h ⊢
  obtain ⟨out, doc₁, hnode, h⟩ := Attempt.bind_eq_ok_iff.mp h
  obtain ⟨hadmission, hcontribute⟩ := furnishNode_eq_ok_iff.mp hnode
  refine Attempt.bind_eq_ok_iff.mpr ⟨out, doc₁, furnishNode_eq_ok_iff.mpr ⟨?_, ?_⟩, h⟩
  · unfold admission at hadmission ⊢
    rw [hk] at hadmission ⊢
    exact hadmission
  · unfold contribute at hcontribute ⊢
    rw [hk] at hcontribute ⊢
    simp only [hpopulate]
    exact hcontribute

/-- Whatever an evaluator has done before, and whatever there is in a document, if a project without another one in it
is evaluated with success, then nothing that the document held is in its collections: they are those of a blank
document, which stands behind all that there was. And evaluating the project again, also after some references were
read, succeeds and leaves everything as it was: handles, ids, owners, the ids in use with the source of new ones, the
projects on record, and the layout. -/
theorem evaluate_project_again (data : Nat → Node)
    (hp : Passes (fun _ node => node.AuthorsText) (.start supply) e) (hk : node.kind = .project)
    (hone : ∀ n ∈ Tree.nodesOf children, n.2.kind ≠ .project)
    (hs : ∀ n ∈ (Tree.node mark node children).nodes, n.2 = data n.1 ∧ n.2.AuthorsText)
    (h : evaluate (.node mark node children) .root { e with document := doc } = (.ok (), e₁)) :
    ∃ e', evaluate (.node mark node children) .root { e with document := .blank doc.populatedBy } = (.ok (), e') ∧
      e₁.document = doc.behind e'.document ∧ (e₁.document.layout []).1 = (e'.document.layout []).1 ∧
      ∀ readings, ∃ e₂,
        evaluate (.node mark node children) .root { e₁ with document := e₁.document.keep readings } = (.ok (), e₂) ∧
          e₂.met = e₁.met ∧ (∀ n, e₂.idOf? n = e₁.idOf? n) ∧ e₂.owners = e₁.owners ∧ e₂.supply = e₁.supply ∧
          e₂.document = (e₁.document.keep readings).behind e'.document ∧
          e₂.document.populatedBy = e₁.document.populatedBy ∧
          (e₂.document.layout []).1 = (e₁.document.layout []).1 := by
  obtain ⟨e', h', rfl⟩ := (evaluate_project_iff hk).mp h
  have howned : ({ e with document := .blank doc.populatedBy } : Evaluation).Owned :=
    have ho := hp.owned (.start supply)
    ⟨ho.met, ho.bound, ho.keyed, ho.inverse, ho.issued⟩
  have hnodes : Tree.nodesOf [Tree.node mark node children] = (Tree.node mark node children).nodes := List.append_nil _
  have hall : ∀ n ∈ Tree.nodesOf [Tree.node mark node children], n.2 = data n.1 ∧ n.2.AuthorsText := hnodes ▸ hs
  have hevaluates := evaluates_of_evaluate _ h'
  obtain ⟨-, ho', hgranted⟩ := hevaluates.settles hall howned
  obtain ⟨homes, hhomed⟩ := hevaluates.homed (Document.Homed.blank doc.populatedBy) NodeScope.HomedIn.root
  have hlayout : ∀ old : Document, ((old.behind e'.document).layout []).1 = (e'.document.layout []).1 := fun old =>
    (Document.behind_layout hhomed).outcome [] []
  -- the project has the same handle in the end, so that its record is complete after the first evaluation
  have hhandle : e'.grants.handle mark = e.handleFor mark := (handleFor_of_evaluate hs howned h').trans rfl
  have hrecord := populatedBy_of_evaluate hk hone h'
  have hfurnish := furnish_of_evaluate (.node mark node children) hs howned h' (.refl data e')
  rw [← hhandle] at hrecord
  obtain ⟨f, hf, hrecalls, hdocument⟩ := evaluate_of_furnish (.node mark node children)
    (f := { e' with document := .blank e'.document.populatedBy }) ho' (fun n hn => hgranted n (hnodes.symm ▸ hn))
    ⟨rfl, rfl, rfl, fun _ => rfl⟩ (furnish_project hk hrecord.symm hfurnish)
  refine ⟨e', h', rfl, hlayout doc, fun readings => ⟨f.behind ((e'.behind doc).document.keep readings), ?_, ?_⟩⟩
  · exact (evaluate_project_iff hk).mpr ⟨f, hf, rfl⟩
  · have hbehind : (f.behind ((e'.behind doc).document.keep readings)).document =
        ((e'.behind doc).document.keep readings).behind e'.document := by
      rw [← hdocument]
      rfl
    refine ⟨hrecalls.met, hrecalls.idOf?, hrecalls.owners, hrecalls.supply, hbehind, ?_, ?_⟩
    · rw [hbehind]
      rfl
    · rw [hbehind, hlayout]
      exact (hlayout doc).symm

/-- A sprite in two scenes is evaluated with them after some of its marks belonged to other nodes, and then again. -/
theorem evaluate_project_again_twoScenes :
    let e := run exchange (.start ⟨.empty, .counting []⟩)
    Passes (fun _ node => node.AuthorsText) (.start ⟨.empty, .counting []⟩) e ∧
      ∃ e₁, evaluate twoScenes .root e = (.ok (), e₁) ∧ ∃ e₂, evaluate twoScenes .root e₁ = (.ok (), e₂) ∧
        e₂.supply = e₁.supply ∧ (e₂.document.layout []).1 = (e₁.document.layout []).1 := by
  intro e
  have hpasses : Passes (fun _ node => node.AuthorsText) (.start ⟨.empty, .counting []⟩) e := by
    refine Passes.refl.run exchange ?_
    simp [exchange, entryCall, Tree.nodes, Tree.nodesOf, Node.AuthorsText, Node.requestedId?, Value.IsTextOrNull]
  have htree : sharedSprite.tree? (.node 0) = some twoScenes := rfl
  have hnodes : Tree.nodesOf [twoScenes] = twoScenes.nodes := List.append_nil _
  have htext : ∀ n ∈ twoScenes.nodes, n.2.AuthorsText := by decide +kernel
  have hone : ∀ n ∈ twoScenes.nodes.tail, n.2.kind ≠ .project := by decide +kernel
  have hok : (evaluate twoScenes .root e).1.isOk = true := by decide +kernel
  refine ⟨hpasses, ?_⟩
  rcases he : evaluate twoScenes .root e with ⟨_ | _, e₁⟩
  · rw [he] at hok
    cases hok
  · have hfirst : evaluate twoScenes .root { e with document := e.document } = (.ok (), e₁) := he
    obtain ⟨e', -, -, -, hagain⟩ := evaluate_project_again
      (fun mark => (sharedSprite.shape sharedSprite.nodes.size mark).1) hpasses rfl hone
      (fun n hn => ⟨(Forest.allFrom_of_tree? htree).eq_of_mem (hnodes.symm ▸ hn), htext n hn⟩) hfirst
    obtain ⟨e₂, he₂, -, -, -, hsupply, -, -, hlayout⟩ := hagain []
    exact ⟨e₁, rfl, e₂, he₂, hsupply, hlayout⟩

end

end Evaluating

end SceneTree
