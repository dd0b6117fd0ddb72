import SceneTree.Proofs.Integrity.Homes
import SceneTree.Proofs.Integrity.Steady

/-!
# Links between entries

An entry that names another by its id copies that id from its scope. The scope binds what stands around the node in the
tree, and that stays in the document for as long as something below it is evaluated: what is below a node is never the
node. A function keeps the object around it for longer than that. When that object is evaluated again, a new object
takes its place in the document, and the function is left with the old one until it is evaluated again itself, inside
the new object.
-/

namespace SceneTree

namespace Document

/-- The objects stand on scenes of the document, and the variables belong to objects of the document or to none. -/
structure Linked (doc : Document) : Prop where
  scenes : ∀ {n i object}, (n, i) ∈ doc.objects.entries → doc.objectCells.get? i = some object →
    doc.Has .scenes object.scene
  owners : ∀ {n} {entry : VariableEntry}, (n, entry) ∈ doc.globals.entries →
    entry.object = .null ∨ doc.Has .objects entry.object

/-- The interface shows an object of the document. -/
def ShowsObjectOf (doc : Document) : Prop :=
  ∃ id, Entries.get? doc.head.interface (.str "object") = some id ∧ doc.Has .objects id

/-- An object that is an entry has an id. -/
theorem has_of_mem_objects {doc : Document} {n : Handle} {i : Nat} {object : ObjectEntry}
    (h : (n, i) ∈ doc.objects.entries) (ho : doc.objectCells.get? i = some object) : doc.Has .objects object.id := by
  refine ⟨n, List.mem_map.mpr ⟨(n, i), h, ?_⟩⟩
  rw [ho]
  rfl

end Document

/-- What was put at a key is found there. -/
theorem Entries.get?_put_self (entries : Entries) (key v : Value) : (entries.put key v).get? key = some v := by
  induction entries with
  | nil => simp [put, get?, Value.same_self]
  | cons p rest ih =>
    obtain ⟨k, w⟩ := p
    rw [put]
    split
    · next hk => simp [get?, hk]
    · next hk =>
      unfold get? at ih ⊢
      rw [List.find?_cons_of_neg (by simpa using hk)]
      exact ih

section

variable {scope : NodeScope} {n : Handle} {doc doc' : Document} {b : Branch} {out : Option NodeScope}

/-- An effect outside of projects keeps the links if no id of an entry goes away and what the scope binds is there. -/
theorem Effect.linked (h : Effect scope n doc b out doc') (hk : b.kind ≠ .project) (hl : doc.Linked)
    (hi : ∀ {n i}, (n, i) ∈ doc.objects.entries → i < doc.objectCells.size)
    (hmono : ∀ {c id}, doc.Has c id → doc'.Has c id)
    (hscene : ∀ id, scope.get .sceneId = some id → doc.Has .scenes id)
    (howner : doc.ownerIn scope = .null ∨ doc.Has .objects (doc.ownerIn scope)) : doc'.Linked := by
  have howners : ∀ {n} {entry : VariableEntry}, (n, entry) ∈ doc.globals.entries →
      entry.object = .null ∨ doc'.Has .objects entry.object := fun hp => (hl.owners hp).imp_right hmono
  cases h with
  | project hk' => exact absurd hk' hk
  | object _ _ hs =>
    refine ⟨fun {m i object} hp ho => hmono ?_, howners⟩
    rcases Roster.of_mem_insert hp with hp | hp
    · exact hl.scenes hp ((Cells.get?_add_of_ne _ _ (Nat.ne_of_lt (hi hp))).symm.trans ho)
    · obtain ⟨-, rfl⟩ := Prod.mk.inj hp
      obtain rfl := Option.some_inj.mp ((Cells.get?_add_self _ _).symm.trans ho)
      exact hscene _ hs
  | picture | sound =>
    refine ⟨fun {m i object} hp ho => hmono ?_, howners⟩
    obtain ⟨object', ho', he⟩ := Cells.exists_get?_of_modify ho (fun o => o.scene) fun _ => rfl
    rw [← he]
    exact hl.scenes hp ho'
  | global =>
    refine ⟨fun hp ho => hmono (hl.scenes hp ho), fun {m entry} hp => ?_⟩
    rcases Roster.of_mem_insert hp with hp | hp
    · exact howners hp
    · obtain ⟨-, rfl⟩ := Prod.mk.inj hp
      exact howner.imp_right hmono
  | _ => exact ⟨fun hp ho => hmono (hl.scenes hp ho), howners⟩

/-- An effect outside of projects goes on showing an object, unless it shows another one. -/
theorem Effect.showsObjectOf (h : Effect scope n doc b out doc') (hk : b.kind ≠ .project)
    (hmono : ∀ {c id}, doc.Has c id → doc'.Has c id) (hself : b.kind.isObject = true → doc'.Has .objects b.id)
    (hd : doc.ShowsObjectOf ∨ b.kind.isObject = true ∧ (b.node.get .selected).truthy = true) : doc'.ShowsObjectOf := by
  have hold : doc.ShowsObjectOf → doc'.head = doc.head → doc'.ShowsObjectOf := by
    rintro ⟨id, hid, hhas⟩ he
    exact ⟨id, by rw [he, hid], hmono hhas⟩
  cases h with
  | project hk' => exact absurd hk' hk
  | object hk' =>
    cases hs : (b.node.get .selected).truthy with
    | true => exact ⟨b.id, Entries.get?_put_self _ _ _, hs ▸ hself hk'⟩
    | false =>
      rw [hs] at hold
      exact hold (hd.resolve_right fun hsel => by rw [hs] at hsel; exact absurd hsel.2 (by decide)) rfl
  | named hk' =>
    refine hold (hd.resolve_right fun hsel => ?_) rfl
    cases hb : b.kind <;> rw [hb] at hk' hsel <;> first | exact absurd hk' (by decide) | exact absurd hsel.1 (by decide)
  | _ hk' =>
    refine hold (hd.resolve_right fun hsel => ?_) rfl
    rw [show b.kind = _ from hk'] at hsel
    exact absurd hsel.1 (by decide)

/-- An effect that is not of a function leaves the functions. -/
theorem Effect.mem_functions (h : Effect scope n doc b out doc') (hk : b.kind ≠ .function) (hp : b.kind ≠ .project) :
    doc'.functions = doc.functions ∧ ∀ {i function}, doc'.functionCells.get? i = some function →
      ∃ function', doc.functionCells.get? i = some function' ∧ function'.content = function.content := by
  cases h with
  | project hk' => exact absurd hk' hp
  | function hk' => exact absurd hk' hk
  | localVariable => exact ⟨rfl, fun hf => Cells.exists_get?_of_modify hf FunctionEntry.content fun _ => rfl⟩
  | _ => exact ⟨rfl, fun hf => ⟨_, hf, rfl⟩⟩

end

namespace Evaluation

variable {shape : Shape} {marks marks' : List Nat} {homes : List (Option Nat)} {exempt exempt' : Nat → Prop}
  {scope : NodeScope} {e e' : Evaluation}

/-- A function that is not exempt, and whose content belongs to an object, stands below a node whose object it is at
present. -/
def Current (shape : Shape) (homes : List (Option Nat)) (exempt : Nat → Prop) (e : Evaluation) : Prop :=
  ∀ {n i mark object} {function : FunctionEntry}, (n, i) ∈ e.document.functions.entries → e.handle? mark = some n →
    ¬ exempt mark → e.document.functionCells.get? i = some function → homes[function.content]? = some (some object) →
    ∃ outer m, e.handle? outer = some m ∧ (m, object) ∈ e.document.objects.entries ∧ mark ∈ shape.below outer

/-- The entries of a document are linked as they should be, functions apart that are exempt because they are still to be
evaluated again. -/
structure Integral (shape : Shape) (homes : List (Option Nat)) (exempt : Nat → Prop) (e : Evaluation) : Prop where
  faithful : e.Faithful shape
  linked : e.document.Linked
  shown : ∀ {mark n i}, e.handle? mark = some n → (n, i) ∈ e.document.objects.entries →
    ((shape mark).1.get .selected).truthy = true → e.document.ShowsObjectOf
  homed : e.document.Homed homes
  current : e.Current shape homes exempt

/-- More functions may be exempt. -/
theorem Integral.mono (h : e.Integral shape homes exempt) (hx : ∀ mark, exempt mark → exempt' mark) :
    e.Integral shape homes exempt' :=
  ⟨h.faithful, h.linked, h.shown, h.homed, fun hf hm hn => h.current hf hm fun hmark => hn (hx _ hmark)⟩

/-- What a scope binds around nodes with some marks is in the document: the scene, and the object as that of a node that
all of them are below. -/
structure Binds (shape : Shape) (marks : List Nat) (homes : List (Option Nat)) (scope : NodeScope) (e : Evaluation) :
    Prop where
  homed : scope.HomedIn homes
  scene : ∀ id, scope.get .sceneId = some id → e.document.Has .scenes id
  object : ∀ o, scope.get .object = some o → ∃ outer n, e.handle? outer = some n ∧
    (n, o) ∈ e.document.objects.entries ∧ outer ∉ shape.below outer ∧ marks ⊆ shape.below outer

/-- Fewer marks. -/
theorem Binds.mono (h : e.Binds shape marks homes scope) (hm : marks' ⊆ marks) : e.Binds shape marks' homes scope := by
  refine ⟨h.homed, h.scene, fun o ho => ?_⟩
  obtain ⟨outer, n, hn, hmem, hself, hbelow⟩ := h.object o ho
  exact ⟨outer, n, hn, hmem, hself, fun _ hmark => hbelow (hm hmark)⟩

/-- What a scope binds stays while nodes are visited that it is bound around. -/
theorem Binds.later (h : e.Binds shape marks homes scope) (hr : e.Retains marks e') (more : List (Option Nat)) :
    e'.Binds shape marks (homes ++ more) scope := by
  refine ⟨h.homed.append more, fun id hid => hr.has (h.scene id hid), fun o ho => ?_⟩
  obtain ⟨outer, n, hn, hmem, hself, hbelow⟩ := h.object o ho
  exact ⟨outer, n, hr.handle? hn, hr.objects hn (fun hmark => hself (hbelow hmark)) hmem, hself, hbelow⟩

/-- An object that is an entry is the object of its node. -/
theorem Faithful.of_mem_objects (h : e.Faithful shape) {n : Handle} {i : Nat}
    (hp : (n, i) ∈ e.document.objects.entries) :
    ∃ mark, e.handle? mark = some n ∧ i < e.document.objectCells.size := by
  have hmem : (n, (e.document.objectCells.get? i).map (·.id)) ∈ e.document.idsIn .objects :=
    List.mem_map_of_mem (f := fun p : Handle × Nat => (p.1, (e.document.objectCells.get? p.2).map (·.id))) hp
  obtain ⟨mark, hm, -⟩ := h.filed.kind .objects _ hmem
  have hsome := h.filed.isSome .objects _ hmem
  rw [Option.isSome_map] at hsome
  exact ⟨mark, hm, Cells.isSome_get?_iff.mp hsome⟩

/-- Objects that are entries are there. -/
theorem Faithful.lt_of_mem_objects (h : e.Faithful shape) {n : Handle} {i : Nat}
    (hp : (n, i) ∈ e.document.objects.entries) : i < e.document.objectCells.size := by
  obtain ⟨-, -, hlt⟩ := h.of_mem_objects hp
  exact hlt

/-- A function that is an entry is the function of its node. -/
theorem Faithful.of_mem_functions (h : e.Faithful shape) {n : Handle} {i : Nat}
    (hp : (n, i) ∈ e.document.functions.entries) :
    ∃ mark, e.handle? mark = some n ∧ (shape mark).1.kind = .function ∧ i < e.document.functionCells.size := by
  have hmem : (n, (e.document.functionCells.get? i).map (·.id)) ∈ e.document.idsIn .functions :=
    List.mem_map_of_mem (f := fun p : Handle × Nat => (p.1, (e.document.functionCells.get? p.2).map (·.id))) hp
  obtain ⟨mark, hm, hk⟩ := h.filed.kind .functions _ hmem
  have hsome := h.filed.isSome .functions _ hmem
  rw [Option.isSome_map] at hsome
  refine ⟨mark, hm, ?_, Cells.isSome_get?_iff.mp hsome⟩
  cases hkind : (shape mark).1.kind <;> rw [hkind] at hk <;> first | rfl | cases hk

/-- A scope gives variables an owner that is in the document, or none. -/
theorem Binds.owner (h : e.Binds shape marks homes scope) (hf : e.Faithful shape) :
    e.document.ownerIn scope = .null ∨ e.document.Has .objects (e.document.ownerIn scope) := by
  unfold Document.ownerIn
  cases ho : scope.get .object with
  | none => exact .inl rfl
  | some o =>
    obtain ⟨-, n, -, hmem, -⟩ := h.object o ho
    obtain ⟨object, hobject⟩ := Option.isSome_iff_exists.mp (Cells.isSome_get?_iff.mpr (hf.lt_of_mem_objects hmem))
    simp only [hobject, Option.map_some, Option.getD_some]
    exact .inr (Document.has_of_mem_objects hmem hobject)

end Evaluation

namespace Evaluating

variable {shape : Shape} {marks : List Nat} {homes : List (Option Nat)} {exempt : Nat → Prop} {mark : Nat}
  {literals : List Value} {scope : NodeScope} {e e₁ e' : Evaluation} {out : Option NodeScope}
  {forest : List (Tree Nat)}

/-- A function that was current and is not visited is current after a visit, unless it is below the node. -/
theorem current_of_ne (h : e.Integral shape homes exempt) (hr : e.Retains [mark] e₁)
    (hf₁ : e₁.Faithful shape) {homes₁ : List (Option Nat)} (hhomes : homes <+: homes₁) {n i m object : Nat}
    {function : FunctionEntry}
    (hp : (n, i) ∈ e.document.functions.entries) (hm : e₁.handle? m = some n) (hne : m ≠ mark)
    (hx : ¬ (exempt m ∧ m ≠ mark ∨ m ∈ shape.below mark)) (hf : e.document.functionCells.get? i = some function)
    (hhome : homes₁[function.content]? = some (some object)) :
    ∃ outer k, e₁.handle? outer = some k ∧ (k, object) ∈ e₁.document.objects.entries ∧ m ∈ shape.below outer := by
  obtain ⟨m', hm', -, -⟩ := h.faithful.of_mem_functions hp
  obtain rfl := hf₁.filed.owned.eq_of_handle? (hr.handle? hm') hm
  obtain ⟨more, rfl⟩ := hhomes
  rw [List.getElem?_append_left (h.homed.contents hf)] at hhome
  obtain ⟨outer, k, hk, hmem, hbelow⟩ := h.current hp hm' (fun hexempt => hx (.inl ⟨hexempt, hne⟩)) hf hhome
  refine ⟨outer, k, hr.handle? hk, hr.objects hk (fun houter => hx (.inr ?_)) hmem, hbelow⟩
  rw [← List.mem_singleton.mp houter]
  exact hbelow

/-- After a visit of a node that is not exempt, the functions below it are. -/
theorem current_visit (h : e.Integral shape homes exempt) (hb : e.Binds shape marks homes scope) (hm : mark ∈ marks)
    (hk : (shape mark).1.kind ≠ .project) {id : Value} (hf₁ : e₁.Faithful shape) (hr : e.Retains [mark] e₁)
    (hown : e₁.handle? mark = some (e.handleFor mark))
    (heffect : Effect scope (e.handleFor mark) e.document ⟨id, (shape mark).1, literals.map .literal⟩ out e₁.document)
    {homes₁ : List (Option Nat)} (hhomes : homes <+: homes₁)
    (hinner : ∀ inner, out = some inner → inner.HomedIn homes₁) :
    e₁.Current shape homes₁ fun m => exempt m ∧ m ≠ mark ∨ m ∈ shape.below mark := by
  intro n i m object function hp hmark hx hf hhome
  by_cases hkind : (shape mark).1.kind = .function
  · obtain ⟨hout, hdoc⟩ := heffect.of_function hkind
    have htokens : e.document.addPlace.functions.tokens.Nodup := by
      have := h.faithful.filed.tokens .functions
      rwa [Document.tokens_functions] at this
    rw [hdoc] at hp hf
    rcases (Roster.mem_insert_iff htokens).mp hp with ⟨hp, hne⟩ | he
    · have hne' : m ≠ mark := by
        rintro rfl
        exact hne (Option.some_inj.mp (hmark.symm.trans hown))
      obtain ⟨-, -, -, hlt⟩ := h.faithful.of_mem_functions hp
      refine current_of_ne h hr hf₁ hhomes hp hmark hne' hx ?_ hhome
      exact (Cells.get?_add_of_ne _ _ (Nat.ne_of_lt hlt)).symm.trans hf
    · -- the function itself, whose content belongs to the object that the scope binds
      obtain ⟨rfl, rfl⟩ := Prod.mk.inj he
      obtain rfl := Option.some_inj.mp ((Cells.get?_add_self _ _).symm.trans hf)
      obtain rfl := hf₁.filed.owned.eq_of_handle? hmark hown
      have hplace := (hinner _ hout).statements e.document.parts.size (by simp [NodeScope.insideFunction])
      have hobject : scope.get .object = some object := by
        have hget : (scope.insideFunction e.document.functionCells.size e.document.parts.size).get .object =
            scope.get .object := by simp [NodeScope.insideFunction]
        rw [hget] at hplace
        exact Option.some_inj.mp (hplace.symm.trans hhome)
      obtain ⟨outer, k, hk', hmem, -, hbelow⟩ := hb.object object hobject
      refine ⟨outer, k, hr.handle? hk', ?_, hbelow hm⟩
      rw [hdoc]
      exact hmem
  · obtain ⟨hfunctions, hcells⟩ := heffect.mem_functions hkind hk
    rw [hfunctions] at hp
    obtain ⟨function', hf', hcontent⟩ := hcells hf
    obtain ⟨m', hm', hkind', -⟩ := h.faithful.of_mem_functions hp
    obtain rfl := hf₁.filed.owned.eq_of_handle? (hr.handle? hm') hmark
    have hne : m' ≠ mark := by
      rintro rfl
      exact hkind hkind'
    exact current_of_ne h hr hf₁ hhomes hp hmark hne hx hf' (hcontent ▸ hhome)

/-- A visit keeps the links, and what the scope of the children binds is there. -/
theorem integral_visit (h : e.Integral shape homes exempt) (hb : e.Binds shape marks homes scope) (hm : mark ∈ marks)
    (hsub : shape.below mark ⊆ marks) (hself : mark ∉ shape.below mark) (ha : (shape mark).1.AuthorsText)
    (hk : (shape mark).1.kind ≠ .project) (hv : visit mark (shape mark).1 literals scope e = (.ok out, e₁)) :
    ∃ more, e₁.Integral shape (homes ++ more) (fun m => exempt m ∧ m ≠ mark ∨ m ∈ shape.below mark) ∧
      ∀ inner, out = some inner → e₁.Binds shape (shape.below mark) (homes ++ more) inner := by
  obtain ⟨hf₁, hkept, hown, id, heffect, hgranted⟩ := faithful_visit h.faithful ha hv
  have hr := retains_visit h.faithful ha hk hv
  obtain ⟨more, hhomed, hinner⟩ := heffect.homed h.homed hb.homed
  have hhas : ∀ c, (shape mark).1.kind.collection? = some c → e₁.document.Has c id :=
    fun c hc => ⟨_, heffect.mem_idsIn_self h.faithful.filed.isSome hc⟩
  refine ⟨more, ⟨hf₁, ?_, ?_, hhomed, ?_⟩, ?_⟩
  · exact heffect.linked hk h.linked h.faithful.lt_of_mem_objects hr.has hb.scene (hb.owner h.faithful)
  · intro m n i hmark hp hsel
    refine heffect.showsObjectOf hk hr.has (fun hobject => hhas _ (Kind.collection?_of_isObject hobject)) ?_
    rcases heffect.of_mem_objects hp with hp | ⟨hobject, hn⟩
    · obtain ⟨m', hm', -⟩ := h.faithful.of_mem_objects hp
      obtain rfl := hf₁.filed.owned.eq_of_handle? (hr.handle? hm') hmark
      exact .inl (h.shown hm' hp hsel)
    · obtain rfl : m = mark := hf₁.filed.owned.eq_of_handle? hmark (hown.trans (congrArg some hn.symm))
      exact .inr ⟨hobject, hsel⟩
  · exact current_visit h hb hm hk hf₁ hr hown heffect (List.prefix_append homes more) hinner
  · intro inner hout
    subst hout
    refine ⟨hinner inner rfl, fun scene hs => ?_, fun o ho => ?_⟩
    · rw [heffect.get_sceneId] at hs
      split at hs
      · next hkind =>
        rw [← Option.some_inj.mp hs]
        refine hhas .scenes ?_
        rw [show (shape mark).1.kind = .scene from hkind]
        rfl
      · exact hr.has (hb.scene scene hs)
    · rw [heffect.get_object] at ho
      split at ho
      · next hkind =>
        obtain ⟨scene, -, -, hdoc⟩ := heffect.of_isObject hkind
        refine ⟨mark, e.handleFor mark, hown, ?_, hself, fun _ hmark => hmark⟩
        rw [hdoc, ← Option.some_inj.mp ho]
        exact Roster.mem_insert_self _ _ _
      · obtain ⟨outer, n, hn, hmem, hself', hbelow⟩ := hb.object o ho
        refine ⟨outer, n, hr.handle? hn, hr.objects hn (fun he => hself' ?_) hmem, hself',
          fun _ hmark => hbelow (hsub hmark)⟩
        have hsame := List.mem_singleton.mp he
        subst hsame
        exact hbelow hm

/-- A visit of the first of some trees keeps the links, and leaves the objects that are not of nodes in them. -/
theorem integral_first {node : Node} {children rest : List (Tree Nat)}
    (hs : Tree.AllFrom shape (.node mark node children :: rest))
    (ha : ∀ m ∈ Tree.marksOf (.node mark node children :: rest), (shape m).1.AuthorsText)
    (hk : ∀ m ∈ Tree.marksOf (.node mark node children :: rest), (shape m).1.kind ≠ .project)
    (hi : e.Integral shape homes exempt)
    (hb : e.Binds shape (Tree.marksOf (.node mark node children :: rest)) homes scope)
    (hv : visit mark node (Tree.literals children) scope e = (.ok out, e₁)) :
    ∃ more, e₁.Integral shape (homes ++ more) (fun m => exempt m ∧ m ≠ mark ∨ m ∈ Tree.marksOf children) ∧
      (∀ inner, out = some inner → e₁.Binds shape (Tree.marksOf children) (homes ++ more) inner) ∧
      e.Retains (Tree.marksOf (.node mark node children :: rest)) e₁ := by
  have hfirst : mark ∈ Tree.marksOf (.node mark node children :: rest) := by simp
  have hself := hs.not_mem_below hfirst
  have hbelow : shape.below mark = Tree.marksOf children := by
    cases hs with
    | node hs _ _ => rw [Shape.below, hs]
  have hnode : (shape mark).1 = node := by
    cases hs with
    | node hs _ _ => rw [hs]
  have hsub : shape.below mark ⊆ Tree.marksOf (.node mark node children :: rest) :=
    fun m hm => hs.mem_of_mem_below hfirst hm
  rw [← hnode] at hv
  obtain ⟨more, hi₁, hinner⟩ := integral_visit hi hb hfirst hsub hself (ha mark hfirst) (hk mark hfirst) hv
  rw [hbelow] at hi₁ hinner
  refine ⟨more, hi₁, hinner, ?_⟩
  exact (retains_visit hi.faithful (ha mark hfirst) (hk mark hfirst) hv).mono
    (List.cons_subset.mpr ⟨hfirst, List.nil_subset _⟩)

/-- An evaluation with success inside a project keeps the links. The functions in it are evaluated again, and no longer
exempt. -/
theorem Evaluates.integral (h : Evaluates scope forest e e') (hs : Tree.AllFrom shape forest)
    (ha : ∀ m ∈ Tree.marksOf forest, (shape m).1.AuthorsText)
    (hk : ∀ m ∈ Tree.marksOf forest, (shape m).1.kind ≠ .project) (hi : e.Integral shape homes exempt)
    (hb : e.Binds shape (Tree.marksOf forest) homes scope) :
    ∃ more, e'.Integral shape (homes ++ more) fun m => exempt m ∧ m ∉ Tree.marksOf forest := by
  induction h generalizing homes exempt with
  | nil =>
    refine ⟨[], ?_⟩
    rw [List.append_nil]
    exact hi.mono fun m hm => ⟨hm, List.not_mem_nil⟩
  | literal v _ ih =>
    cases hs with
    | literal _ hr => exact ih hr ha hk hi hb
  | @leaf _ mark node children rest _ _ _ hv hnodes _ ih =>
    obtain ⟨more, hi₁, -, hr⟩ := integral_first hs ha hk hi hb hv
    have hb₁ := hb.later hr more
    have hempty : Tree.marksOf children = [] := by rw [Tree.marksOf, hnodes]; rfl
    simp only [Tree.marksOf_node, List.forall_mem_cons, List.forall_mem_append] at ha hk
    cases hs with
    | node _ _ hrest =>
      obtain ⟨more', hi'⟩ := ih hrest ha.2.2 hk.2.2 hi₁ (hb₁.mono (by simp))
      refine ⟨more ++ more', ?_⟩
      rw [← List.append_assoc]
      refine hi'.mono fun m hm => ?_
      simp only [hempty, List.not_mem_nil, or_false] at hm
      simp only [Tree.marksOf_node, hempty, List.nil_append, List.mem_cons, not_or]
      exact ⟨hm.1.1, hm.1.2, hm.2⟩
  | @branch _ _ mark node children rest _ _ _ _ hv hchildren _ ihc ihr =>
    obtain ⟨more, hi₁, hinner, hr⟩ := integral_first hs ha hk hi hb hv
    have ha' := ha
    have hk' := hk
    simp only [Tree.marksOf_node, List.forall_mem_cons, List.forall_mem_append] at ha' hk'
    cases hs with
    | node _ hc hrest =>
      obtain ⟨more₂, hi₂⟩ := ihc hc ha'.2.1 hk'.2.1 hi₁ (hinner _ rfl)
      have hr₂ := (hchildren.retains hc ha'.2.1 hk'.2.1 hi₁.faithful).2
      have hb₂ := (hb.later hr more).later (hr₂.mono (by simp)) more₂
      obtain ⟨more', hi'⟩ := ihr hrest ha'.2.2 hk'.2.2 hi₂ (hb₂.mono (by simp))
      refine ⟨more ++ more₂ ++ more', ?_⟩
      rw [← List.append_assoc, ← List.append_assoc]
      refine hi'.mono fun m hm => ?_
      obtain ⟨⟨hm | hm, hchild⟩, hlater⟩ := hm
      · simp only [Tree.marksOf_node, List.mem_cons, List.mem_append, not_or]
        exact ⟨hm.1, hm.2, hchild, hlater⟩
      · exact absurd hm hchild

end Evaluating

end SceneTree
