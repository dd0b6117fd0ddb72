import SceneTree.Proofs.Translation.Growth

/-!
# Filling a document from a forest

`Fills` is the evaluation of some trees whose nodes have their ids already and are all new, with the document and the
next handle as its state. Each step of it happens in a scope that names what is there and in a document in which all
handles are old. That makes it the relation to reason with: what is said of a whole filling follows by induction from
what is said of the effects in it.
-/

namespace SceneTree

namespace NodeScope

variable {scope : NodeScope} {doc doc' : Document}

/-- A scope names cells and places that are there, a place for statements other than that for parameters, and a project
only if one has filled the document; without a project nothing is bound but the document. -/
structure Within (scope : NodeScope) (doc : Document) : Prop where
  root : scope.get .root = some ()
  object : ∀ i, scope.get .object = some i → i < doc.objectCells.size
  function : ∀ i, scope.get .function = some i → i < doc.functionCells.size
  statements : ∀ c, scope.get .statements = some c → ∃ p, c = .place p ∧ p < doc.parts.size
  params : ∀ c, scope.get .params = some c → ∃ p, c = .place p ∧ p < doc.parts.size
  apart : ∀ p q, scope.get .statements = some (.place p) → scope.get .params = some (.place q) → p ≠ q
  project : scope.get .project = some () → doc.populatedBy ≠ []
  bare : scope.get .project = none → ∀ place, place ≠ .root → scope.get place = none

/-- The scope of the root of a tree names nothing but the document. -/
theorem Within.root_scope (doc : Document) : NodeScope.root.Within doc := by
  have hn : ∀ place, place ≠ .root → NodeScope.root.get place = none := by
    intro place hp
    unfold NodeScope.root
    rw [Scope.get_bind_of_ne _ _ hp]
    rfl
  refine ⟨rfl, ?_, ?_, ?_, ?_, ?_, ?_, fun _ => hn⟩
  · intro i h
    cases (hn .object (by decide)).symm.trans h
  · intro i h
    cases (hn .function (by decide)).symm.trans h
  · intro c h
    cases (hn .statements (by decide)).symm.trans h
  · intro c h
    cases (hn .params (by decide)).symm.trans h
  · intro p q h
    cases (hn .statements (by decide)).symm.trans h
  · intro h
    cases (hn .project (by decide)).symm.trans h

/-- The place for statements is there. -/
theorem Within.statements_lt (h : scope.Within doc) {p : Nat} (hp : scope.get .statements = some (.place p)) :
    p < doc.parts.size := by
  obtain ⟨_, he, hlt⟩ := h.statements _ hp
  cases he
  exact hlt

/-- The place for parameters is there. -/
theorem Within.params_lt (h : scope.Within doc) {p : Nat} (hp : scope.get .params = some (.place p)) :
    p < doc.parts.size := by
  obtain ⟨_, he, hlt⟩ := h.params _ hp
  cases he
  exact hlt

/-- A scope still names what is there in a later document. -/
theorem Within.later (h : scope.Within doc) (hl : doc.Later doc') : scope.Within doc' where
  root := h.root
  object := fun i hi => Nat.lt_of_lt_of_le (h.object i hi) hl.objects.size_le
  function := fun i hi => Nat.lt_of_lt_of_le (h.function i hi) hl.functions.size_le
  statements := by
    intro c hc
    obtain ⟨p, hp, hlt⟩ := h.statements c hc
    exact ⟨p, hp, Nat.lt_of_lt_of_le hlt hl.parts.size_le⟩
  params := by
    intro c hc
    obtain ⟨p, hp, hlt⟩ := h.params c hc
    exact ⟨p, hp, Nat.lt_of_lt_of_le hlt hl.parts.size_le⟩
  apart := h.apart
  project := by
    intro hp he
    obtain ⟨rest, hr⟩ := hl.populatedBy
    rw [he, List.append_eq_nil_iff] at hr
    exact h.project hp hr.1
  bare := h.bare

/-- Where anything but the document is bound, a project is. -/
theorem Within.project_of_some (h : scope.Within doc) {place : Place} (hp : place ≠ .root) {binding : Binding place}
    (hb : scope.get place = some binding) : scope.get .project = some () := by
  cases hproj : scope.get .project with
  | some _ => rfl
  | none =>
    rw [h.bare hproj place hp] at hb
    cases hb

end NodeScope

namespace Document

/-- All handles in a document are below a number, and the document is empty until a project has filled it. -/
structure Fresh (doc : Document) (n : Nat) : Prop where
  below : doc.Below n
  blank : doc.populatedBy = [] → doc = .empty

theorem Fresh.empty (n : Nat) : Document.empty.Fresh n := ⟨.empty n, fun _ => rfl⟩

end Document

section

variable {scope inner : NodeScope} {n : Handle} {doc doc' : Document} {b : Branch} {out : Option NodeScope}

/-- The next handle is the only one that an effect adds. -/
theorem Effect.below (h : Effect scope n doc b out doc') (hb : doc.Below n) : doc'.Below (n + 1) := by
  cases h with
  | fragment => exact hb.mono
  | project =>
    refine { hb.mono with
      scenes := .empty _
      objects := .empty _
      globals := .empty _
      messages := .empty _
      functions := .empty _
      tables := .empty _
      populatedBy := ?_ }
    intro handle hh
    unfold Document.populate at hh
    simp only at hh
    split at hh
    · exact hb.mono.populatedBy handle hh
    · rcases List.mem_append.mp hh with hh | hh
      · exact hb.mono.populatedBy handle hh
      · rw [List.mem_singleton.mp hh]
        exact Nat.lt_succ_self n
  | scene => exact { hb.mono with scenes := hb.scenes.insert _ }
  | object =>
    exact { hb.addPlace.mono with
      objects := hb.objects.insert _
      objectCells := hb.mono.objectCells.add ⟨.empty _, .empty _⟩ }
  | picture => exact hb.changeObject _ fun _ ho => ⟨ho.1.insert _, ho.2.mono⟩
  | sound => exact hb.changeObject _ fun _ ho => ⟨ho.1.mono, ho.2.insert _⟩
  | global => exact { hb.mono with globals := hb.globals.insert _ }
  | message => exact { hb.mono with messages := hb.messages.insert _ }
  | function =>
    exact { hb.addPlace.mono with
      functions := hb.functions.insert _
      functionCells := hb.mono.functionCells.add (.empty _) }
  | localVariable => exact hb.changeFunction _ fun _ hl => hl.insert _
  | table => exact { hb.mono with tables := hb.tables.insert _ }
  | statement => exact hb.addPlace.putItem _ _
  | script => exact hb.addPlace.addPlace.putItem _ _
  | param => exact hb.putItem _ _
  | named => exact (hb.addReference _ _).putItem _ _

/-- Outside of a project only wrappers and projects have an effect. -/
theorem Effect.kind_of_bare (h : Effect scope n doc b out doc') (hw : scope.Within doc)
    (hp : scope.get .project = none) : b.kind = .project ∨ doc' = doc := by
  have hn : ∀ place, place ≠ .root → ∀ binding, scope.get place ≠ some binding := by
    intro place hr binding hb
    cases (hw.bare hp place hr).symm.trans hb
  cases h with
  | fragment => exact .inr rfl
  | project hk => exact .inl hk
  | scene hk hproj => exact absurd hproj (hn _ (by decide) _)
  | object hk hproj => exact absurd hproj (hn _ (by decide) _)
  | picture hk ho => exact absurd ho (hn _ (by decide) _)
  | sound hk ho => exact absurd ho (hn _ (by decide) _)
  | global hk hproj => exact absurd hproj (hn _ (by decide) _)
  | message hk hproj => exact absurd hproj (hn _ (by decide) _)
  | function hk hproj => exact absurd hproj (hn _ (by decide) _)
  | localVariable hk hf => exact absurd hf (hn _ (by decide) _)
  | table hk hproj => exact absurd hproj (hn _ (by decide) _)
  | statement hk hs => exact absurd hs (hn _ (by decide) _)
  | script hk hs => exact absurd hs (hn _ (by decide) _)
  | param hk hs => exact absurd hs (hn _ (by decide) _)
  | named hk ht hs => exact absurd hs (hn _ (by decide) _)

/-- A project is on record after it has filled the document. -/
theorem populatedBy_populate (doc : Document) (head : ProjectHead) (n : Handle) :
    (doc.populate head n).populatedBy ≠ [] := by
  unfold Document.populate
  simp only
  split
  · next h =>
    intro he
    rw [he] at h
    cases h
  · simp

/-- A document stays empty until a project fills it. -/
theorem Effect.fresh (h : Effect scope n doc b out doc') (hs : doc.Fresh n) (hw : scope.Within doc) :
    doc'.Fresh (n + 1) := by
  refine ⟨h.below hs.below, fun hp => ?_⟩
  have hdoc : doc.populatedBy = [] := by
    obtain ⟨rest, hr⟩ := h.later.populatedBy
    rw [hp, List.append_eq_nil_iff] at hr
    exact hr.1
  have hbare : scope.get .project = none := by
    cases hproj : scope.get .project with
    | none => rfl
    | some _ => exact absurd hdoc (hw.project hproj)
  rcases h.kind_of_bare hw hbare with hk | rfl
  · exfalso
    cases h with
    | project => exact populatedBy_populate doc _ n hp
    | _ hk' =>
      rw [hk] at hk'
      cases hk'
  · exact hs.blank hdoc

/-- Inside a project the project is bound. -/
theorem NodeScope.Within.bindProject (hw : scope.Within doc) (hp : doc.populatedBy ≠ []) :
    NodeScope.Within (scope.bind .project (some ())) doc := by
  refine ⟨?_, ?_, ?_, ?_, ?_, ?_, fun _ => hp, ?_⟩
  · simpa using hw.root
  · simpa using hw.object
  · simpa using hw.function
  · simpa using hw.statements
  · simpa using hw.params
  · simpa using hw.apart
  · simp

/-- Inside a scene the scene is bound. -/
theorem NodeScope.Within.bindScene (hw : scope.Within doc) (id : Value) (hp : scope.get .project = some ()) :
    NodeScope.Within (scope.bind .sceneId (some id)) doc := by
  refine ⟨?_, ?_, ?_, ?_, ?_, ?_, ?_, ?_⟩
  · simpa using hw.root
  · simpa using hw.object
  · simpa using hw.function
  · simpa using hw.statements
  · simpa using hw.params
  · simpa using hw.apart
  · simpa using hw.project
  · simp [hp]

/-- Inside an object the object and a place for its script are bound. -/
theorem NodeScope.Within.insideObject (hw : scope.Within doc) (hp : scope.get .project = some ()) {index blocks : Nat}
    (hi : index < doc.objectCells.size) (hb : blocks < doc.parts.size) :
    (scope.insideObject index blocks).Within doc := by
  unfold NodeScope.insideObject
  refine ⟨?_, ?_, ?_, ?_, ?_, ?_, ?_, ?_⟩
  · simpa using hw.root
  · simpa using hi
  · simp
  · simpa using hb
  · simp
  · simp
  · simpa using hw.project
  · simp [hp]

/-- Inside a function the function and a place for its content are bound. -/
theorem NodeScope.Within.insideFunction (hw : scope.Within doc) (hp : scope.get .project = some ())
    {index content : Nat} (hi : index < doc.functionCells.size) (hc : content < doc.parts.size) :
    (scope.insideFunction index content).Within doc := by
  unfold NodeScope.insideFunction
  refine ⟨?_, ?_, ?_, ?_, ?_, ?_, ?_, ?_⟩
  · simpa using hw.root
  · simpa using hw.object
  · simpa using hi
  · simpa using hc
  · simp
  · simp
  · simpa using hw.project
  · simp [hp]

/-- Inside a statement a place for its scripts is bound, which is not the place of the statements. -/
theorem NodeScope.Within.insideStatement (hw : scope.Within doc) (hp : scope.get .project = some ()) {block : Nat}
    (hb : block < doc.parts.size) (hne : scope.get .statements ≠ some (.place block)) :
    (scope.insideStatement block).Within doc := by
  unfold NodeScope.insideStatement
  refine ⟨?_, ?_, ?_, ?_, ?_, ?_, ?_, ?_⟩
  · simpa using hw.root
  · simpa using hw.object
  · simpa using hw.function
  · simpa using hw.statements
  · simpa using hb
  · intro p q h h' he
    simp at h h'
    exact hne (by rw [h, h', he])
  · simpa using hw.project
  · simp [hp]

/-- Inside a script two places for its parameters and statements are bound. -/
theorem NodeScope.Within.insideScript (hw : scope.Within doc) (hp : scope.get .project = some ())
    {params statements : Nat} (hps : params < doc.parts.size) (hss : statements < doc.parts.size)
    (hne : statements ≠ params) : (scope.insideScript params statements).Within doc := by
  unfold NodeScope.insideScript
  refine ⟨?_, ?_, ?_, ?_, ?_, ?_, ?_, ?_⟩
  · simpa using hw.root
  · simpa using hw.object
  · simpa using hw.function
  · simpa using hss
  · simpa using hps
  · intro p q h h' he
    simp at h h'
    exact hne (h.trans (he.trans h'.symm))
  · simpa using hw.project
  · simp [hp]

/-- The scope that an effect leaves names what is there. -/
theorem Effect.within (h : Effect scope n doc b (some inner) doc') (hw : scope.Within doc) : inner.Within doc' := by
  have hl := hw.later h.later
  generalize ho : some inner = out at h
  cases h with
  | fragment =>
    cases ho
    exact hl
  | project =>
    cases ho
    exact hl.bindProject (populatedBy_populate doc _ n)
  | scene hk hp =>
    cases ho
    exact hl.bindScene b.id hp
  | object hk hp hs =>
    cases ho
    refine hl.insideObject hp ?_ ?_
    · simp [Document.addObject, Document.addPlace]
    · simp [Document.addObject, Document.addPlace]
  | function hk hp =>
    cases ho
    refine hl.insideFunction hp ?_ ?_
    · simp [Document.addFunction, Document.addPlace]
    · simp [Document.addFunction, Document.addPlace]
  | statement hk hs =>
    cases ho
    refine hl.insideStatement (hw.project_of_some (by decide) hs) ?_ ?_
    · simp [Document.putItem, Document.addPlace]
    · intro he
      exact Nat.lt_irrefl _ (hw.statements_lt he)
  | script hk hp =>
    cases ho
    refine hl.insideScript (hw.project_of_some (by decide) hp) ?_ ?_ (Nat.succ_ne_self _)
    · simp only [Document.putItem, Document.addPlace, Cells.size_modify, Cells.size_add]
      omega
    · simp [Document.putItem, Document.addPlace]
  | _ => cases ho

end

/-- A node of a forest is admitted and contributes, in a scope that names what is there. A project is the first to fill
the document, and only parameters hold plain values. -/
structure Contributes (scope : NodeScope) (n : Handle) (doc : Document) (b : Branch) (out : Option NodeScope)
    (doc' : Document) : Prop where
  fresh : doc.Fresh n
  within : scope.Within doc
  first : b.kind = .project → doc.populatedBy = []
  literals : Tree.literals b.children ≠ [] → b.kind = .param
  admitted : Evaluating.admission b.node (Tree.literals b.children) scope doc = .ok ()
  contributed : Evaluating.contribute b.node (Tree.literals b.children) scope n b.id doc = (.ok out, doc')

theorem Contributes.effect {scope : NodeScope} {n : Handle} {doc doc' : Document} {b : Branch}
    {out : Option NodeScope} (h : Contributes scope n doc b out doc') : Effect scope n doc b out doc' :=
  .of_contribute h.admitted h.contributed

/-- Some trees are evaluated in a scope: the next handle and the document before, and both after. -/
inductive Fills : NodeScope → List (Tree Value) → Handle → Document → Handle → Document → Prop where
  | nil (scope : NodeScope) (n : Handle) (doc : Document) : Fills scope [] n doc n doc
  | literal (v : Value) {scope : NodeScope} {rest : List (Tree Value)} {n n' : Handle} {doc doc' : Document}
      (hr : Fills scope rest n doc n' doc') : Fills scope (.literal v :: rest) n doc n' doc'
  | leaf {scope : NodeScope} {b : Branch} {rest : List (Tree Value)} {n n' : Handle} {doc doc₁ doc' : Document}
      (hb : Contributes scope n doc b none doc₁) (hc : Tree.nodesOf b.children = [])
      (hr : Fills scope rest (n + 1) doc₁ n' doc') :
      Fills scope (.node b.id b.node b.children :: rest) n doc n' doc'
  | branch {scope inner : NodeScope} {b : Branch} {rest : List (Tree Value)} {n n₂ n' : Handle}
      {doc doc₁ doc₂ doc' : Document} (hb : Contributes scope n doc b (some inner) doc₁)
      (hc : Fills inner b.children (n + 1) doc₁ n₂ doc₂) (hr : Fills scope rest n₂ doc₂ n' doc') :
      Fills scope (.node b.id b.node b.children :: rest) n doc n' doc'

/-- A filling leaves a later document. -/
theorem Fills.later {scope : NodeScope} {forest : List (Tree Value)} {n n' : Handle} {doc doc' : Document}
    (h : Fills scope forest n doc n' doc') : doc.Later doc' := by
  induction h with
  | nil => exact .refl _
  | literal v _ ih => exact ih
  | leaf hb _ _ ih => exact hb.effect.later.trans ih
  | branch hb _ _ ihc ihr => exact (hb.effect.later.trans ihc).trans ihr

/-- A tree and then others are filled in as one forest. -/
theorem Fills.cons {scope : NodeScope} {t : Tree Value} {rest : List (Tree Value)} {n n₁ n' : Handle}
    {doc doc₁ doc' : Document} (h : Fills scope [t] n doc n₁ doc₁) (hr : Fills scope rest n₁ doc₁ n' doc') :
    Fills scope (t :: rest) n doc n' doc' := by
  cases h with
  | literal v h =>
    cases h
    exact .literal v hr
  | leaf hb hc h =>
    cases h
    exact .leaf hb hc hr
  | branch hb hc h =>
    cases h
    exact .branch hb hc hr

end SceneTree
