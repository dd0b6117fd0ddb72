import SceneTree.Proofs.Integrity.Links

/-!
# Projects

Outside of projects nothing but wrappers and projects is evaluated with success. A project that is evaluated again
empties the collections, and everything in it is then evaluated again as well; no other project has filled the document
in the end. So the links hold in the end, and every node has its entry.
-/

namespace SceneTree

/-- A scope outside of projects binds nothing but the document. -/
def NodeScope.Bare (scope : NodeScope) : Prop := ∀ place, place ≠ .root → scope.get place = none

theorem NodeScope.bare_root : NodeScope.root.Bare := fun _ h => by simp [NodeScope.root, h]

section

variable {scope : NodeScope} {n : Handle} {doc doc' : Document} {b : Branch} {out : Option NodeScope}

/-- Outside of projects there are only wrappers, which change nothing, and projects. -/
theorem Effect.of_bare (h : Effect scope n doc b out doc') (hb : scope.Bare) :
    b.kind = .fragment ∧ out = some scope ∧ doc' = doc ∨ b.kind = .project := by
  have hnone : ∀ {place : Place} {binding : Binding place}, place ≠ .root → scope.get place = some binding → False := by
    intro place binding hp hs
    rw [hb place hp] at hs
    cases hs
  cases h with
  | fragment hk => exact .inl ⟨hk, rfl, rfl⟩
  | project hk => exact .inr hk
  | scene _ hp | object _ hp | global _ hp | message _ hp | function _ hp | table _ hp =>
    exact absurd hp fun h => hnone (by decide) h
  | picture _ ho | sound _ ho => exact absurd ho fun h => hnone (by decide) h
  | localVariable _ hf => exact absurd hf fun h => hnone (by decide) h
  | statement _ hs => exact absurd hs fun h => hnone (by decide) h
  | script _ hp | param _ hp | named _ _ hp => exact absurd hp fun h => hnone (by decide) h

end

namespace Evaluation

variable {shape : Shape} {marks : List Nat} {homes : List (Option Nat)} {exempt : Nat → Prop} {e e' : Evaluation}
  {mark : Nat}

/-- A node has its entry, if nodes of its kind have one. -/
def Lists (shape : Shape) (e : Evaluation) (mark : Nat) : Prop :=
  ∀ c, (shape mark).1.kind.collection? = some c →
    ∃ n id, e.handle? mark = some n ∧ (n, some id) ∈ e.document.idsIn c

theorem Lists.of_none (h : (shape mark).1.kind.collection? = none) : e.Lists shape mark := by
  intro c hc
  rw [h] at hc
  cases hc

theorem Lists.later (h : e.Lists shape mark) (hr : e.Retains marks e') : e'.Lists shape mark := by
  intro c hc
  obtain ⟨n, id, hn, hmem⟩ := h c hc
  exact ⟨n, id, hr.handle? hn, hr.entries hmem⟩

/-- The links do not depend on which nodes without entries were met. -/
theorem Integral.of_document_eq (h : e.Integral shape homes exempt) (hf : e'.Faithful shape)
    (hd : e'.document = e.document) (hm : ∀ {mark n}, e.handle? mark = some n → e'.handle? mark = some n) :
    e'.Integral shape homes exempt := by
  refine ⟨hf, hd ▸ h.linked, ?_, hd ▸ h.homed, ?_⟩
  · intro mark n i hmark hp hs
    rw [hd] at hp ⊢
    obtain ⟨mark', hmark', -⟩ := h.faithful.of_mem_objects hp
    obtain rfl := hf.filed.owned.eq_of_handle? (hm hmark') hmark
    exact h.shown hmark' hp hs
  · intro n i mark object function hp hmark hx hfunction hhome
    rw [hd] at hp hfunction ⊢
    obtain ⟨mark', hmark', -⟩ := h.faithful.of_mem_functions hp
    obtain rfl := hf.filed.owned.eq_of_handle? (hm hmark') hmark
    obtain ⟨outer, m, ho, hmem, hbelow⟩ := h.current hp hmark' hx hfunction hhome
    exact ⟨outer, m, hm ho, hmem, hbelow⟩

/-- A document that was just emptied has all links. -/
theorem Integral.of_populate (h : e.Integral shape homes exempt) (hf : e'.Faithful shape) {head : ProjectHead}
    {n : Handle} (hd : e'.document = e.document.populate head n) : e'.Integral shape homes exempt := by
  refine ⟨hf, ?_, ?_, ?_, ?_⟩
  · rw [hd]
    exact ⟨fun hp => absurd hp List.not_mem_nil, fun hp => absurd hp List.not_mem_nil⟩
  · intro mark m i _ hp
    rw [hd] at hp
    exact absurd hp List.not_mem_nil
  · rw [hd]
    exact ⟨h.homed.size, h.homed.blocks, h.homed.contents, h.homed.places, h.homed.references⟩
  · intro m i mark object function hp
    rw [hd] at hp
    exact absurd hp List.not_mem_nil

/-- Right inside a project nothing is bound that could go away. -/
theorem binds_project {scope : NodeScope} (hb : scope.Bare) (marks : List Nat) (homes : List (Option Nat)) :
    e.Binds shape marks homes (scope.bind .project (some ())) := by
  refine ⟨⟨fun p hp => ?_, fun p hp => ?_⟩, fun id hid => ?_, fun o ho => ?_⟩
  · rw [Scope.get_bind_of_ne _ _ (by decide), hb _ (by decide)] at hp
    cases hp
  · rw [Scope.get_bind_of_ne _ _ (by decide), hb _ (by decide)] at hp
    cases hp
  · rw [Scope.get_bind_of_ne _ _ (by decide), hb _ (by decide)] at hid
    cases hid
  · rw [Scope.get_bind_of_ne _ _ (by decide), hb _ (by decide)] at ho
    cases ho

end Evaluation

namespace Evaluating

variable {shape : Shape} {homes : List (Option Nat)} {mark p : Nat} {literals : List Value} {scope : NodeScope}
  {e e₁ e' : Evaluation} {out : Option NodeScope} {forest : List (Tree Nat)}

/-- A node that is visited with success has its entry. -/
theorem lists_visit (h : e.Faithful shape) (ha : (shape mark).1.AuthorsText)
    (hv : visit mark (shape mark).1 literals scope e = (.ok out, e₁)) : e₁.Lists shape mark := by
  obtain ⟨-, -, hown, id, heffect, -⟩ := faithful_visit h ha hv
  exact fun c hc => ⟨_, id, hown, heffect.mem_idsIn_self h.filed.isSome hc⟩

/-- After an evaluation with success inside a project, all nodes in it have their entries. -/
theorem Evaluates.lists (h : Evaluates scope forest e e') (hs : Tree.AllFrom shape forest)
    (ha : ∀ m ∈ Tree.marksOf forest, (shape m).1.AuthorsText)
    (hk : ∀ m ∈ Tree.marksOf forest, (shape m).1.kind ≠ .project) (hf : e.Faithful shape) :
    ∀ m ∈ Tree.marksOf forest, e'.Lists shape m := by
  induction h with
  | nil => exact List.forall_mem_nil _
  | literal v _ ih =>
    cases hs with
    | literal _ hr => exact ih hr ha hk hf
  | @leaf _ mark node children rest _ _ _ hv hnodes hrest ih =>
    have hempty : Tree.marksOf children = [] := by rw [Tree.marksOf, hnodes]; rfl
    simp only [Tree.marksOf_node, hempty, List.nil_append, List.forall_mem_cons] at ha hk ⊢
    cases hs with
    | node hs _ hr =>
      obtain rfl : node = (shape mark).1 := by rw [hs]
      have hf₁ := (faithful_visit hf ha.1 hv).1
      have hr' := (hrest.retains hr ha.2 hk.2 hf₁).2
      exact ⟨(lists_visit hf ha.1 hv).later hr', ih hr ha.2 hk.2 hf₁⟩
  | @branch _ _ mark node children rest _ _ _ _ hv hchildren hrest ihc ihr =>
    simp only [Tree.marksOf_node, List.forall_mem_cons, List.forall_mem_append] at ha hk ⊢
    cases hs with
    | node hs hc hr =>
      obtain rfl : node = (shape mark).1 := by rw [hs]
      have hf₁ := (faithful_visit hf ha.1 hv).1
      obtain ⟨hf₂, hrc⟩ := hchildren.retains hc ha.2.1 hk.2.1 hf₁
      have hrr := (hrest.retains hr ha.2.2 hk.2.2 hf₂).2
      refine ⟨((lists_visit hf ha.1 hv).later hrc).later hrr, ?_, ihr hr ha.2.2 hk.2.2 hf₂⟩
      exact fun m hm => (ihc hc ha.2.1 hk.2.1 hf₁ m hm).later hrr

/-- In trees that are evaluated with success outside of projects there are only wrappers, projects and what is below
projects. -/
theorem Evaluates.in_project (h : Evaluates scope forest e e') (hb : scope.Bare) (hs : Tree.AllFrom shape forest) :
    ∀ m ∈ Tree.marksOf forest, (shape m).1.kind = .fragment ∨
      ∃ q ∈ Tree.marksOf forest, (shape q).1.kind = .project ∧ (m = q ∨ m ∈ shape.below q) := by
  induction h with
  | nil => exact List.forall_mem_nil _
  | literal v _ ih =>
    cases hs with
    | literal _ hr => exact ih hb hr
  | @leaf _ mark node children rest _ _ _ hv hnodes hrest ih =>
    obtain ⟨id, -, -, heffect, -⟩ := effect_of_visit hv
    rcases heffect.of_bare hb with ⟨-, hout, -⟩ | hk
    · cases hout
    · cases (heffect.of_project hk).1
  | @branch _ inner mark node children rest _ _ _ _ hv hchildren hrest ihc ihr =>
    obtain ⟨id, -, -, heffect, -⟩ := effect_of_visit hv
    cases hs with
    | node hs hc hr =>
      have hlater : ∀ m ∈ Tree.marksOf rest, (shape m).1.kind = .fragment ∨
          ∃ q ∈ Tree.marksOf (.node mark node children :: rest), (shape q).1.kind = .project ∧
            (m = q ∨ m ∈ shape.below q) := by
        intro m hm
        refine (ihr hb hr m hm).imp_right ?_
        rintro ⟨q, hq, hk, hmq⟩
        exact ⟨q, by simp [hq], hk, hmq⟩
      have hnode : (shape mark).1 = node := by rw [hs]
      simp only [Tree.marksOf_node, List.forall_mem_cons, List.forall_mem_append] at hlater ⊢
      rcases heffect.of_bare hb with ⟨hk, hout, -⟩ | hk
      · obtain rfl := Option.some_inj.mp hout
        refine ⟨.inl (by rw [hnode]; exact hk), fun m hm => ?_, hlater⟩
        refine (ihc hb hc m hm).imp_right ?_
        rintro ⟨q, hq, hk, hmq⟩
        exact ⟨q, by simp [hq], hk, hmq⟩
      · have hself : (shape mark).1.kind = .project := by rw [hnode]; exact hk
        refine ⟨.inr ⟨mark, List.mem_cons_self, hself, .inl rfl⟩, fun m hm => ?_, hlater⟩
        refine .inr ⟨mark, List.mem_cons_self, hself, .inr ?_⟩
        rw [Shape.below, hs]
        exact hm

/-- Handles stay, and so do the projects on record; a project that is visited is put on record. -/
theorem populated_visit (h : e.Faithful shape) (ha : (shape mark).1.AuthorsText)
    (hv : visit mark (shape mark).1 literals scope e = (.ok out, e₁)) :
    (∀ {m n}, e.handle? m = some n → e₁.handle? m = some n) ∧ e.document.populatedBy <+: e₁.document.populatedBy ∧
      ((shape mark).1.kind = .project → ∃ n, e₁.handle? mark = some n ∧ n ∈ e₁.document.populatedBy) := by
  obtain ⟨hf₁, -, hown, id, heffect, -⟩ := faithful_visit h ha hv
  have hprefix := met_visit mark (shape mark).1 literals scope e
  rw [hv] at hprefix
  refine ⟨Evaluation.handle?_mono hf₁.filed.owned.met hprefix, heffect.later.populatedBy, fun hk => ⟨_, hown, ?_⟩⟩
  rw [(heffect.of_project hk).2]
  unfold Document.populate
  simp only
  split
  · next hc => exact List.contains_iff_mem.mp hc
  · exact List.mem_append_right _ (List.mem_singleton_self _)

/-- Every project that was evaluated with success is on record in the document. -/
theorem Evaluates.populated (h : Evaluates scope forest e e') (hs : Tree.AllFrom shape forest)
    (ha : ∀ m ∈ Tree.marksOf forest, (shape m).1.AuthorsText) (hf : e.Faithful shape) :
    (∀ {m n}, e.handle? m = some n → e'.handle? m = some n) ∧ e.document.populatedBy <+: e'.document.populatedBy ∧
      ∀ m ∈ Tree.marksOf forest, (shape m).1.kind = .project →
        ∃ n, e'.handle? m = some n ∧ n ∈ e'.document.populatedBy := by
  induction h with
  | nil => exact ⟨id, List.prefix_refl _, List.forall_mem_nil _⟩
  | literal v _ ih =>
    cases hs with
    | literal _ hr => exact ih hr ha hf
  | @leaf _ mark node children rest _ _ _ hv hnodes hrest ih =>
    have hempty : Tree.marksOf children = [] := by rw [Tree.marksOf, hnodes]; rfl
    simp only [Tree.marksOf_node, hempty, List.nil_append, List.forall_mem_cons] at ha ⊢
    cases hs with
    | node hs _ hr =>
      obtain rfl : node = (shape mark).1 := by rw [hs]
      obtain ⟨hh₁, hp₁, hself⟩ := populated_visit hf ha.1 hv
      obtain ⟨hh', hp', hrest'⟩ := ih hr ha.2 (faithful_visit hf ha.1 hv).1
      refine ⟨fun hm => hh' (hh₁ hm), hp₁.trans hp', fun hk => ?_, hrest'⟩
      obtain ⟨n, hn, hmem⟩ := hself hk
      exact ⟨n, hh' hn, hp'.subset hmem⟩
  | @branch _ _ mark node children rest _ _ _ _ hv hchildren hrest ihc ihr =>
    simp only [Tree.marksOf_node, List.forall_mem_cons, List.forall_mem_append] at ha ⊢
    cases hs with
    | node hs hc hr =>
      obtain rfl : node = (shape mark).1 := by rw [hs]
      have hf₁ := (faithful_visit hf ha.1 hv).1
      obtain ⟨hh₁, hp₁, hself⟩ := populated_visit hf ha.1 hv
      obtain ⟨hh₂, hp₂, hchildren'⟩ := ihc hc ha.2.1 hf₁
      obtain ⟨hh', hp', hrest'⟩ := ihr hr ha.2.2 (hchildren.faithful hc ha.2.1 hf₁)
      refine ⟨fun hm => hh' (hh₂ (hh₁ hm)), (hp₁.trans hp₂).trans hp', fun hk => ?_, fun m hm hk => ?_, hrest'⟩
      · obtain ⟨n, hn, hmem⟩ := hself hk
        exact ⟨n, hh' (hh₂ hn), (hp₂.trans hp').subset hmem⟩
      · obtain ⟨n, hn, hmem⟩ := hchildren' m hm hk
        exact ⟨n, hh' hn, hp'.subset hmem⟩

/-- Where one project is on record, there is one project in the trees that were evaluated. -/
theorem Evaluates.one_project (h : Evaluates scope forest e e') (hs : Tree.AllFrom shape forest)
    (ha : ∀ m ∈ Tree.marksOf forest, (shape m).1.AuthorsText) (hf : e.Faithful shape)
    (hone : e'.document.populatedBy.length = 1) {m m' : Nat} (hm : m ∈ Tree.marksOf forest)
    (hk : (shape m).1.kind = .project) (hm' : m' ∈ Tree.marksOf forest) (hk' : (shape m').1.kind = .project) :
    m = m' := by
  obtain ⟨-, -, hpopulated⟩ := h.populated hs ha hf
  obtain ⟨n, hn, hmem⟩ := hpopulated m hm hk
  obtain ⟨n', hn', hmem'⟩ := hpopulated m' hm' hk'
  obtain ⟨only, honly⟩ := List.length_eq_one_iff.mp hone
  rw [honly, List.mem_singleton] at hmem hmem'
  subst hmem hmem'
  exact (h.faithful hs ha hf).filed.owned.eq_of_handle? hn hn'

/-- An evaluation with success outside of projects, in which there is one project at most, keeps the links, and all
nodes have their entries in the end. -/
theorem Evaluates.integral_bare (h : Evaluates scope forest e e') (hb : scope.Bare) (hs : Tree.AllFrom shape forest)
    (ha : ∀ m ∈ Tree.marksOf forest, (shape m).1.AuthorsText)
    (hp : ∀ m ∈ Tree.marksOf forest, (shape m).1.kind = .project → m = p)
    (hi : e.Integral shape homes fun _ => False) :
    (∃ more, e'.Integral shape (homes ++ more) fun _ => False) ∧ ∀ m ∈ Tree.marksOf forest, e'.Lists shape m := by
  have hall := h
  induction h generalizing homes with
  | nil => exact ⟨⟨[], by rw [List.append_nil]; exact hi⟩, List.forall_mem_nil _⟩
  | literal v _ ih =>
    cases hs with
    | literal _ hr =>
      cases hall with
      | literal _ hall => exact ih hb hr ha hp hi hall
  | leaf hv hnodes hrest ih =>
    obtain ⟨id, -, -, heffect, -⟩ := effect_of_visit hv
    rcases heffect.of_bare hb with ⟨-, hout, -⟩ | hk
    · cases hout
    · cases (heffect.of_project hk).1
  | @branch scope inner mark node children rest e e₁ e₂ e' hv hchildren hrest ihc ihr =>
    have hin := hall.in_project hb hs
    obtain ⟨haself, hachildren, harest⟩ : (shape mark).1.AuthorsText ∧
        (∀ m ∈ Tree.marksOf children, (shape m).1.AuthorsText) ∧
        ∀ m ∈ Tree.marksOf rest, (shape m).1.AuthorsText := by
      simpa only [Tree.marksOf_node, List.forall_mem_cons, List.forall_mem_append] using ha
    have hselfbelow : mark ∉ shape.below mark := hs.not_mem_below (by simp)
    have hbelow : ∀ {q m}, q ∈ Tree.marksOf rest → m ∈ shape.below q → m ∈ Tree.marksOf rest := by
      intro q m hq hm
      cases hs with
      | node _ _ hr => exact hr.mem_of_mem_below hq hm
    cases hs with
    | node hs hc hr =>
      obtain rfl : node = (shape mark).1 := by rw [hs]
      obtain ⟨hf₁, -, -, id, heffect, -⟩ := faithful_visit hi.faithful haself hv
      obtain ⟨hhandles, -, -⟩ := populated_visit hi.faithful haself hv
      have hchildrenOf : shape.below mark = Tree.marksOf children := by rw [Shape.below, hs]
      -- the node and what is below it
      have hfirst : (∃ more, e₂.Integral shape (homes ++ more) fun _ => False) ∧
          ∀ m ∈ Tree.marksOf children, e₂.Lists shape m := by
        rcases heffect.of_bare hb with ⟨-, hout, hdoc⟩ | hk
        · obtain rfl := Option.some_inj.mp hout
          exact ihc hb hc hachildren (fun m hm => hp m (by simp [hm])) (hi.of_document_eq hf₁ hdoc hhandles) hchildren
        · obtain ⟨hout, hdoc⟩ := heffect.of_project hk
          obtain rfl := Option.some_inj.mp hout
          have hno : ∀ m ∈ Tree.marksOf children, (shape m).1.kind ≠ .project := by
            intro m hm hkm
            have hsame : m = mark := (hp m (by simp [hm]) hkm).trans (hp mark (by simp) hk).symm
            rw [hchildrenOf] at hselfbelow
            exact hselfbelow (hsame ▸ hm)
          obtain ⟨more, hi₂⟩ :=
            hchildren.integral hc hachildren hno (hi.of_populate hf₁ hdoc) (Evaluation.binds_project hb _ _)
          exact ⟨⟨more, hi₂.mono fun _ hm => hm.1⟩, hchildren.lists hc hachildren hno hf₁⟩
      obtain ⟨⟨more, hi₂⟩, hlists⟩ := hfirst
      obtain ⟨⟨more', hi'⟩, hlists'⟩ := ihr hb hr harest (fun m hm => hp m (by simp [hm])) hi₂ hrest
      refine ⟨⟨more ++ more', by rw [← List.append_assoc]; exact hi'⟩, ?_⟩
      intro m hm
      have hmem := hm
      rw [Tree.marksOf_node, List.mem_cons, List.mem_append] at hmem
      rcases hmem with rfl | hmem | hmem
      · rcases heffect.of_bare hb with ⟨hk, -⟩ | hk
        · exact .of_none (by rw [show (shape m).1.kind = _ from hk]; rfl)
        · exact .of_none (by rw [show (shape m).1.kind = _ from hk]; rfl)
      · by_cases hproject : ∃ r ∈ Tree.marksOf rest, (shape r).1.kind = .project
        · -- the project is evaluated again, and all below it
          obtain ⟨r, hr', hkr⟩ := hproject
          rcases hin m hm with hk | ⟨q, hq, hkq, rfl | hmq⟩
          · exact .of_none (by rw [hk]; rfl)
          · exact .of_none (by rw [hkq]; rfl)
          · obtain rfl : q = r := (hp q hq hkq).trans (hp r (by simp [hr']) hkr).symm
            exact hlists' m (hbelow hr' hmq)
        · have hretains := (hrest.retains hr harest (fun r hr' hkr => hproject ⟨r, hr', hkr⟩) hi₂.faithful).2
          exact (hlists m hmem).later hretains
      · exact hlists' m hmem

end Evaluating

end SceneTree
