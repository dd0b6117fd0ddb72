import SceneTree.Proofs.Identity.Items

/-!
# The objects that places belong to

A picture or a sound is looked for in the object that the parameter that names it stands in. So all references inside
one place of a script look in one object at most: the one that was bound when the place came to be. The list of these
objects grows with the places and is nowhere in the document.
-/

namespace SceneTree

/-- The object among whose pictures or sounds a name is looked for. -/
def Target.object? : Target → Option Nat
  | .globals | .objects => none
  | .pictures object | .sounds object => some object

/-- What stands in a list stands at the same position in a longer one. -/
theorem getElem?_append_of_eq_some {α : Type} {l : List α} {i : Nat} {a : α} (h : l[i]? = some a) (more : List α) :
    (l ++ more)[i]? = some a := by
  rw [List.getElem?_append_left (List.getElem?_eq_some_iff.mp h).1]
  exact h

namespace Document

variable {doc : Document} {n : Handle}

/-- What is in a place after something was put into one. -/
theorem mem_held_putItem {place p : Nat} {item item' : Item} (h : item' ∈ (doc.putItem place n item).held p) :
    item' ∈ doc.held p ∨ p = place ∧ item' = item := by
  by_cases hp : p = place
  · subst hp
    unfold held putItem at h
    rw [Cells.get?_modify_self] at h
    cases hi : doc.parts.get? p with
    | none =>
      rw [hi] at h
      exact absurd h List.not_mem_nil
    | some items =>
      rw [hi] at h
      rcases Roster.mem_values_insert h with h | h
      · refine .inl ?_
        unfold held
        rw [hi]
        exact h
      · exact .inr ⟨rfl, h⟩
  · rw [held_putItem_of_ne hp] at h
    exact .inl h

/-- A new place holds nothing. -/
theorem mem_held_addPlace {p : Nat} {item : Item} (h : item ∈ doc.addPlace.held p) : item ∈ doc.held p := by
  by_cases hp : p = doc.parts.size
  · subst hp
    rw [held_addPlace_self] at h
    exact absurd h List.not_mem_nil
  · unfold held addPlace at h
    rw [Cells.get?_add_of_ne _ _ hp] at h
    exact h

/-- Every place belongs to an object or to none: the place of its scripts to an object itself, a place inside another to
the same object. References in a place look for pictures and sounds only in the object that the place belongs to. -/
structure Homed (homes : List (Option Nat)) (doc : Document) : Prop where
  size : homes.length = doc.parts.size
  blocks : ∀ {i object}, doc.objectCells.get? i = some object → homes[object.blocks]? = some (some i)
  contents : ∀ {i function}, doc.functionCells.get? i = some function → function.content < homes.length
  places : ∀ {p item q}, item ∈ doc.held p → q ∈ item.places → p < q ∧ q < homes.length ∧ homes[q]? = homes[p]?
  references : ∀ {p index}, .reference index ∈ doc.held p →
    ∃ target r, doc.references.get? index = some (target, r) ∧ ∀ i, target.object? = some i → homes[p]? = some (some i)

namespace Homed

variable {homes : List (Option Nat)}

theorem empty : Document.empty.Homed [] where
  size := rfl
  blocks := fun h => by cases h
  contents := fun h => by cases h
  places := fun h => absurd h List.not_mem_nil
  references := fun h => absurd h List.not_mem_nil

/-- Something is only in places that are there. -/
theorem lt_of_mem (h : doc.Homed homes) {p : Nat} {item : Item} (hi : item ∈ doc.held p) : p < homes.length := by
  rw [h.size, ← Cells.isSome_get?_iff]
  unfold held at hi
  cases hp : doc.parts.get? p with
  | none =>
    rw [hp] at hi
    exact absurd hi List.not_mem_nil
  | some items => rfl

theorem addPlace (h : doc.Homed homes) (home : Option Nat) : doc.addPlace.Homed (homes ++ [home]) where
  size := by simp [Document.addPlace, h.size]
  blocks := fun hi => getElem?_append_of_eq_some (h.blocks hi) _
  contents := fun hi => by
    rw [List.length_append]
    exact Nat.lt_add_right _ (h.contents hi)
  places := fun hi hq => by
    have hi := mem_held_addPlace hi
    obtain ⟨hlt, hq', he⟩ := h.places hi hq
    rw [List.getElem?_append_left hq', List.getElem?_append_left (h.lt_of_mem hi), List.length_append]
    exact ⟨hlt, Nat.lt_add_right _ hq', he⟩
  references := fun hi => by
    obtain ⟨target, r, hr, ht⟩ := h.references (mem_held_addPlace hi)
    exact ⟨target, r, hr, fun i hi => getElem?_append_of_eq_some (ht i hi) _⟩

theorem putItem (h : doc.Homed homes) {place : Nat} {item : Item}
    (hp : ∀ q ∈ item.places, place < q ∧ q < homes.length ∧ homes[q]? = homes[place]?)
    (hr : ∀ index, item = .reference index → ∃ target r, doc.references.get? index = some (target, r) ∧
      ∀ i, target.object? = some i → homes[place]? = some (some i)) (n : Handle) :
    (doc.putItem place n item).Homed homes where
  size := by simp [Document.putItem, h.size]
  blocks := h.blocks
  contents := h.contents
  places := fun hi hq => by
    rcases mem_held_putItem hi with hi | ⟨rfl, rfl⟩
    · exact h.places hi hq
    · exact hp _ hq
  references := fun hi => by
    rcases mem_held_putItem hi with hi | ⟨rfl, he⟩
    · exact h.references hi
    · exact hr _ he.symm

theorem addReference (h : doc.Homed homes) (target : Target) (r : Reference) :
    (doc.addReference target r).Homed homes where
  size := h.size
  blocks := h.blocks
  contents := h.contents
  places := h.places
  references := fun hi => by
    obtain ⟨target', r', hr, ht⟩ := h.references hi
    obtain ⟨pair, hpair, rfl⟩ := (Cells.Later.add id doc.references (target, r)) _ _ hr
    exact ⟨target', r', hpair, ht⟩

theorem addObject (h : doc.Homed homes) {entry : ObjectEntry}
    (hb : homes[entry.blocks]? = some (some doc.objectCells.size)) (n : Handle) (selected : Bool) :
    (doc.addObject n entry selected).Homed homes where
  size := h.size
  blocks := fun {i object} hi => by
    by_cases he : i = doc.objectCells.size
    · subst he
      obtain rfl := Option.some_inj.mp ((Cells.get?_add_self _ _).symm.trans hi)
      exact hb
    · exact h.blocks ((Cells.get?_add_of_ne _ _ he).symm.trans hi)
  contents := h.contents
  places := h.places
  references := h.references

theorem addFunction (h : doc.Homed homes) {entry : FunctionEntry} (hc : entry.content < homes.length) (n : Handle) :
    (doc.addFunction n entry).Homed homes where
  size := h.size
  blocks := h.blocks
  contents := fun {i function} hi => by
    by_cases he : i = doc.functionCells.size
    · subst he
      obtain rfl := Option.some_inj.mp ((Cells.get?_add_self _ _).symm.trans hi)
      exact hc
    · exact h.contents ((Cells.get?_add_of_ne _ _ he).symm.trans hi)
  places := h.places
  references := h.references

theorem changeObject (h : doc.Homed homes) (index : Nat) {f : ObjectEntry → ObjectEntry}
    (hf : ∀ object, (f object).blocks = object.blocks) : (doc.changeObject index f).Homed homes where
  size := h.size
  blocks := fun {i object} hi => by
    obtain ⟨object', ho, hb⟩ := Cells.exists_get?_of_modify hi ObjectEntry.blocks hf
    rw [← hb]
    exact h.blocks ho
  contents := h.contents
  places := h.places
  references := h.references

theorem changeFunction (h : doc.Homed homes) (index : Nat) {f : FunctionEntry → FunctionEntry}
    (hf : ∀ function, (f function).content = function.content) : (doc.changeFunction index f).Homed homes where
  size := h.size
  blocks := h.blocks
  contents := fun {i function} hi => by
    obtain ⟨function', ho, hc⟩ := Cells.exists_get?_of_modify hi FunctionEntry.content hf
    rw [← hc]
    exact h.contents ho
  places := h.places
  references := h.references

/-- A reference that is found in a place at any depth looks for pictures and sounds only in the object that the place
belongs to. -/
theorem of_mem_itemsWithin (h : doc.Homed homes) {depth place index : Nat}
    (hi : .reference index ∈ doc.itemsWithin depth place) :
    ∃ target r, doc.references.get? index = some (target, r) ∧
      ∀ i, target.object? = some i → homes[place]? = some (some i) := by
  induction depth generalizing place with
  | zero => exact absurd hi List.not_mem_nil
  | succ depth ih =>
    rw [itemsWithin, List.mem_flatMap] at hi
    obtain ⟨item, hitem, hi⟩ := hi
    rcases List.mem_cons.mp hi with rfl | hi
    · exact h.references hitem
    · obtain ⟨q, hq, hi⟩ := List.mem_flatMap.mp hi
      rw [← (h.places hitem hq).2.2]
      exact ih hi

/-- Nothing more is found in a place when one goes deeper than there are places after it. -/
theorem itemsWithin_subset (h : doc.Homed homes) {depth depth' place : Nat} (hd : homes.length ≤ place + depth') :
    ∀ item ∈ doc.itemsWithin depth place, item ∈ doc.itemsWithin depth' place := by
  induction depth generalizing place depth' with
  | zero => exact fun _ hi => absurd hi List.not_mem_nil
  | succ depth ih =>
    intro item hi
    rw [itemsWithin, List.mem_flatMap] at hi
    obtain ⟨outer, ho, hi⟩ := hi
    have hlt := h.lt_of_mem ho
    obtain ⟨depth', rfl⟩ := Nat.exists_eq_add_of_lt (show 0 < depth' by omega)
    rw [Nat.zero_add] at hd ⊢
    rw [itemsWithin, List.mem_flatMap]
    refine ⟨outer, ho, ?_⟩
    rcases List.mem_cons.mp hi with rfl | hi
    · exact List.mem_cons_self
    · obtain ⟨q, hq, hi⟩ := List.mem_flatMap.mp hi
      have hafter := (h.places ho hq).1
      exact List.mem_cons_of_mem _ (List.mem_flatMap.mpr ⟨q, hq, ih (by omega) item hi⟩)

end Homed

end Document

namespace NodeScope

variable {scope : NodeScope} {homes : List (Option Nat)}

/-- The places that a scope binds belong to the object that it binds. -/
structure HomedIn (homes : List (Option Nat)) (scope : NodeScope) : Prop where
  statements : ∀ p, scope.get .statements = some (.place p) → homes[p]? = some (scope.get .object)
  params : ∀ p, scope.get .params = some (.place p) → homes[p]? = some (scope.get .object)

/-- More places change nothing. -/
theorem HomedIn.append (h : scope.HomedIn homes) (more : List (Option Nat)) : scope.HomedIn (homes ++ more) :=
  ⟨fun p hp => getElem?_append_of_eq_some (h.statements p hp) more,
    fun p hp => getElem?_append_of_eq_some (h.params p hp) more⟩

/-- A scope that binds the same object and places. -/
theorem HomedIn.of_eq (h : scope.HomedIn homes) {inner : NodeScope} (ho : inner.get .object = scope.get .object)
    (hs : inner.get .statements = scope.get .statements) (hp : inner.get .params = scope.get .params) :
    inner.HomedIn homes :=
  ⟨fun p h' => by rw [ho, h.statements p (hs ▸ h')], fun p h' => by rw [ho, h.params p (hp ▸ h')]⟩

/-- Inside an object the place for its scripts belongs to it. -/
theorem HomedIn.insideObject {index blocks : Nat} (h : homes[blocks]? = some (some index)) :
    (scope.insideObject index blocks).HomedIn homes := by
  refine ⟨fun p hp => ?_, fun p hp => ?_⟩
  · simp only [NodeScope.insideObject, Scope.get_bind_self, ne_eq, reduceCtorEq, not_false_eq_true,
      Scope.get_bind_of_ne, Option.some.injEq, Collector.place.injEq] at hp ⊢
    rw [← hp, h]
  · simp [NodeScope.insideObject] at hp

/-- Inside a function the place for its content belongs to the object around it. -/
theorem HomedIn.insideFunction {index content : Nat} (h : homes[content]? = some (scope.get .object)) :
    (scope.insideFunction index content).HomedIn homes := by
  refine ⟨fun p hp => ?_, fun p hp => ?_⟩
  · simp only [NodeScope.insideFunction, Scope.get_bind_self, ne_eq, reduceCtorEq, not_false_eq_true,
      Scope.get_bind_of_ne, Option.some.injEq, Collector.place.injEq] at hp ⊢
    rw [← hp, h]
  · simp [NodeScope.insideFunction] at hp

/-- Inside a statement the place for its scripts belongs to the object around it. -/
theorem HomedIn.insideStatement (hs : scope.HomedIn homes) {block : Nat}
    (h : homes[block]? = some (scope.get .object)) : (scope.insideStatement block).HomedIn homes := by
  refine ⟨fun p hp => ?_, fun p hp => ?_⟩
  · simp only [NodeScope.insideStatement, ne_eq, reduceCtorEq, not_false_eq_true, Scope.get_bind_of_ne] at hp ⊢
    exact hs.statements p hp
  · simp only [NodeScope.insideStatement, Scope.get_bind_self, ne_eq, reduceCtorEq, not_false_eq_true,
      Scope.get_bind_of_ne, Option.some.injEq, Collector.place.injEq] at hp ⊢
    rw [← hp, h]

/-- Inside a script the places for its parameters and statements belong to the object around it. -/
theorem HomedIn.insideScript {params statements : Nat} (hp : homes[params]? = some (scope.get .object))
    (hs : homes[statements]? = some (scope.get .object)) : (scope.insideScript params statements).HomedIn homes := by
  refine ⟨fun p h => ?_, fun p h => ?_⟩
  · simp only [NodeScope.insideScript, Scope.get_bind_self, ne_eq, reduceCtorEq, not_false_eq_true,
      Scope.get_bind_of_ne, Option.some.injEq, Collector.place.injEq] at h ⊢
    rw [← h, hs]
  · simp only [NodeScope.insideScript, Scope.get_bind_self, ne_eq, reduceCtorEq, not_false_eq_true,
      Scope.get_bind_of_ne, Option.some.injEq, Collector.place.injEq] at h ⊢
    rw [← h, hp]

end NodeScope

section

open Document

variable {scope : NodeScope} {n : Handle} {doc doc' : Document} {b : Branch} {out : Option NodeScope}
  {homes : List (Option Nat)}

/-- A parameter that is inside an object looks for pictures and sounds there. -/
theorem object?_of_targetIn {node : Node} {target : Target} (h : Evaluating.targetIn node scope = some target) {i : Nat}
    (hi : target.object? = some i) : scope.get .object = some i := by
  unfold Evaluating.targetIn at h
  split at h
  · cases h
    cases hi
  · cases h
    cases hi
  · obtain ⟨object, ho, rfl⟩ := Option.map_eq_some_iff.mp h
    exact ho.trans hi
  · obtain ⟨object, ho, rfl⟩ := Option.map_eq_some_iff.mp h
    exact ho.trans hi
  · cases h

/-- An effect gives the places that it makes to the object that is bound below it. -/
theorem Effect.homed (h : Effect scope n doc b out doc') (hd : doc.Homed homes) (hs : scope.HomedIn homes) :
    ∃ more, doc'.Homed (homes ++ more) ∧ ∀ inner, out = some inner → inner.HomedIn (homes ++ more) := by
  have hself : ∀ home, (homes ++ [home])[doc.parts.size]? = some home := by
    intro home
    rw [← hd.size, List.getElem?_append_right (Nat.le_refl _), Nat.sub_self]
    rfl
  cases h with
  | fragment =>
    refine ⟨[], by rw [List.append_nil]; exact hd, ?_⟩
    rintro _ ⟨⟩
    exact hs.append []
  | project | scene =>
    refine ⟨[], ?_, ?_⟩
    · rw [List.append_nil]
      exact ⟨hd.size, hd.blocks, hd.contents, hd.places, hd.references⟩
    · rintro _ ⟨⟩
      exact (hs.append []).of_eq (by simp) (by simp) (by simp)
  | global | message | table =>
    refine ⟨[], ?_, fun _ he => by cases he⟩
    rw [List.append_nil]
    exact ⟨hd.size, hd.blocks, hd.contents, hd.places, hd.references⟩
  | object =>
    refine ⟨[some doc.objectCells.size], (hd.addPlace _).addObject (hself _) _ _, ?_⟩
    rintro _ ⟨⟩
    exact .insideObject (hself _)
  | picture | sound =>
    refine ⟨[], ?_, fun _ he => by cases he⟩
    rw [List.append_nil]
    exact hd.changeObject _ fun _ => rfl
  | function =>
    refine ⟨[scope.get .object], (hd.addPlace _).addFunction ?_ _, ?_⟩
    · rw [List.length_append, hd.size]
      exact Nat.lt_succ_self _
    · rintro _ ⟨⟩
      exact .insideFunction (hself _)
  | localVariable =>
    refine ⟨[], ?_, fun _ he => by cases he⟩
    rw [List.append_nil]
    exact hd.changeFunction _ fun _ => rfl
  | @statement _ place hplace =>
    have hhome := hs.statements place hplace
    have hlt : place < doc.parts.size := hd.size ▸ (List.getElem?_eq_some_iff.mp hhome).1
    refine ⟨[scope.get .object], (hd.addPlace _).putItem ?_ (fun _ he => by cases he) _, ?_⟩
    · intro q hq
      rw [List.mem_singleton.mp hq, List.length_append, hd.size, hself, getElem?_append_of_eq_some hhome]
      exact ⟨hlt, Nat.lt_succ_self _, rfl⟩
    · rintro _ ⟨⟩
      exact (hs.append _).insideStatement (hself _)
  | @script _ place hplace =>
    have hhome := hs.params place hplace
    have hlt : place < doc.parts.size := hd.size ▸ (List.getElem?_eq_some_iff.mp hhome).1
    have hparams := getElem?_append_of_eq_some (hself (scope.get .object)) [scope.get .object]
    have hstatements : (homes ++ [scope.get .object] ++ [scope.get .object])[doc.parts.size + 1]? =
        some (scope.get .object) := by
      rw [List.getElem?_append_right (by simp [hd.size])]
      simp [hd.size]
    have hboth := (hd.addPlace (scope.get .object)).addPlace (scope.get .object)
    refine ⟨[scope.get .object] ++ [scope.get .object], ?_, ?_⟩
    · rw [← List.append_assoc]
      refine hboth.putItem ?_ (fun _ he => by cases he) _
      have hplaced := getElem?_append_of_eq_some (getElem?_append_of_eq_some hhome [scope.get .object])
        [scope.get .object]
      intro q hq
      rw [hplaced, List.length_append, List.length_append, hd.size]
      rcases List.mem_cons.mp hq with rfl | hq
      · exact ⟨hlt, Nat.lt_succ_of_lt (Nat.lt_succ_self _), hparams⟩
      · rw [List.mem_singleton.mp hq]
        exact ⟨Nat.lt_succ_of_lt hlt, Nat.lt_succ_self _, hstatements⟩
    · rintro _ ⟨⟩
      rw [← List.append_assoc]
      exact .insideScript hparams hstatements
  | param =>
    refine ⟨[], ?_, fun _ he => by cases he⟩
    rw [List.append_nil]
    exact hd.putItem (fun _ hq => absurd hq List.not_mem_nil) (fun _ he => by cases he) _
  | named _ ht hp =>
    refine ⟨[], ?_, fun _ he => by cases he⟩
    rw [List.append_nil]
    refine (hd.addReference _ _).putItem (fun _ hq => absurd hq List.not_mem_nil) (fun index he => ?_) _
    cases he
    refine ⟨_, _, Cells.get?_add_self _ _, fun i hi => ?_⟩
    rw [hs.params _ hp, object?_of_targetIn ht hi]

end

end SceneTree
