import SceneTree.Proofs.Translation.Contents
import SceneTree.Proofs.Translation.Reading

/-!
# What places of scripts hold in the end

A script holds places, and these hold others that came later. When a document is finished, what a place holds reads as
the parts that the forest below gives to it: `Fills.adds` follows the filling and compares the places of the scope with
what the finished document shows in them.
-/

namespace SceneTree

namespace Document

variable {doc doc₁ doc₂ doc' fin : Document} {scope : NodeScope} {n : Handle} {p : Nat}

/-- What a place holds. -/
def held (doc : Document) (p : Nat) : List Item := ((doc.parts.get? p).map Roster.values).getD []

theorem held_congr (h : doc.parts.get? p = doc'.parts.get? p) : doc.held p = doc'.held p := by
  unfold held
  rw [h]

/-- What the next handle puts into a place comes last. -/
theorem held_putItem_self (hb : doc.Below n) (hp : p < doc.parts.size) (item : Item) :
    (doc.putItem p n item).held p = doc.held p ++ [item] := by
  obtain ⟨items, hi⟩ := Option.isSome_iff_exists.mp (Cells.isSome_get?_iff.mpr hp)
  unfold held putItem
  rw [Cells.get?_modify_self, hi]
  exact (hb.parts p items hi).values_insert item

/-- A new place holds nothing. -/
theorem held_addPlace_self (doc : Document) : doc.addPlace.held doc.parts.size = [] := by
  unfold held addPlace
  rw [Cells.get?_add_self]
  rfl

/-- What came to a document between two moments is as it was at the second one; references may have found something. -/
structure Settled (doc doc' fin : Document) : Prop where
  parts : ∀ p, doc.parts.size ≤ p → p < doc'.parts.size → fin.parts.get? p = doc'.parts.get? p
  objects : ∀ i, doc.objectCells.size ≤ i → i < doc'.objectCells.size → fin.objectCells.get? i = doc'.objectCells.get? i
  functions : ∀ i, doc.functionCells.size ≤ i → i < doc'.functionCells.size →
    fin.functionCells.get? i = doc'.functionCells.get? i
  references : doc'.references.Later (fun (target, r) => (target, r.kind, r.name)) fin.references

/-- What came later is a part of what came. -/
theorem Settled.after (h : doc.Settled doc' fin) (hl : doc.Later doc₁) : doc₁.Settled doc' fin where
  parts := fun p hp => h.parts p (Nat.le_trans hl.parts.size_le hp)
  objects := fun i hi => h.objects i (Nat.le_trans hl.objects.size_le hi)
  functions := fun i hi => h.functions i (Nat.le_trans hl.functions.size_le hi)
  references := h.references

/-- What came earlier is as it was before the rest was filled in, since no scope names it any more. -/
theorem Settled.before {rest : List (Tree Value)} {n₂ n' : Handle} (h : doc.Settled doc' fin)
    (hr : Fills scope rest n₂ doc₂ n' doc') (hw : scope.Within doc) : doc.Settled doc₂ fin where
  parts := by
    intro p hp hp₂
    refine (h.parts p hp (Nat.lt_of_lt_of_le hp₂ hr.later.parts.size_le)).trans (hr.get?_part_of_ne hp₂ ?_ ?_)
    · intro hs
      obtain ⟨q, hq, hlt⟩ := hw.statements _ hs
      cases hq
      exact Nat.not_lt.mpr hp hlt
    · intro hs
      obtain ⟨q, hq, hlt⟩ := hw.params _ hs
      cases hq
      exact Nat.not_lt.mpr hp hlt
  objects := by
    intro i hi hi₂
    refine (h.objects i hi (Nat.lt_of_lt_of_le hi₂ hr.later.objects.size_le)).trans (hr.get?_object_of_ne hi₂ ?_)
    exact fun ho => Nat.not_lt.mpr hi (hw.object i ho)
  functions := by
    intro i hi hi₂
    refine (h.functions i hi (Nat.lt_of_lt_of_le hi₂ hr.later.functions.size_le)).trans
      (hr.get?_function_of_ne hi₂ ?_)
    exact fun hf => Nat.not_lt.mpr hi (hw.function i hf)
  references := by
    intro i x hx
    obtain ⟨y, hy, he⟩ := hr.later.references i x hx
    rw [id, id] at he
    exact he ▸ h.references i y hy

/-- The names that a document knows are those that parameters in a scope may mean. -/
structure Knows (fin : Document) (names : Names) (scope : NodeScope) : Prop where
  globals : fin.candidates .globals = names.globals
  objects : fin.candidates .objects = names.objects
  pictures : ∀ i, scope.get .object = some i → fin.candidates (.pictures i) = names.pictures
  sounds : ∀ i, scope.get .object = some i → fin.candidates (.sounds i) = names.sounds

/-- A parameter looks for its name where the tree says. -/
theorem Knows.target {names : Names} (h : fin.Knows names scope) {b : Branch} {target : Target}
    (ht : Evaluating.targetIn b.node scope = some target) : fin.candidates target = b.candidates names := by
  unfold Evaluating.targetIn at ht
  unfold Branch.candidates Branch.kind
  match hk : b.node.kind with
  | .variableParam =>
    rw [hk] at ht
    cases ht
    exact h.globals
  | .objectParam =>
    rw [hk] at ht
    cases ht
    exact h.objects
  | .pictureParam =>
    rw [hk] at ht
    obtain ⟨i, hi, rfl⟩ := Option.map_eq_some_iff.mp ht
    exact h.pictures i hi
  | .soundParam =>
    rw [hk] at ht
    obtain ⟨i, hi, rfl⟩ := Option.map_eq_some_iff.mp ht
    exact h.sounds i hi
  | .node | .fragment | .project | .scene | .object | .sprite | .textBox | .picture | .sound | .variable | .message
  | .function | .localVariable | .table | .statement | .script | .param | .namedParam =>
    rw [hk] at ht
    cases ht

/-- An item of a place, read down to a depth, has the encoding of a value. -/
def ShowsItem (fin : Document) (depth : Nat) (item : Item) (w : Value) : Prop :=
  (fin.itemValue (fin.partValues depth) item).Reads fin.Right w

/-- Between two moments the places of a scope gather items that read, in a finished document, as some parts of scripts.
The depth of reading has to go beyond the places that were there at the first moment. -/
def Adds (fin : Document) (scope : NodeScope) (doc doc' : Document) (parts : Parts) : Prop :=
  ∃ statements params : List Item,
    (∀ p, scope.get .statements = some (.place p) → doc'.held p = doc.held p ++ statements) ∧
    (∀ p, scope.get .params = some (.place p) → doc'.held p = doc.held p ++ params) ∧
    ∀ depth, fin.parts.size ≤ depth + doc.parts.size →
      List.Forall₂ (fin.ShowsItem depth) statements parts.statements ∧
      List.Forall₂ (fin.ShowsItem depth) params parts.params

/-- Where no place of a scope changes, nothing is gathered. -/
theorem Adds.nothing (fin : Document) (hs : ∀ p, scope.get .statements = some (.place p) → doc'.held p = doc.held p)
    (hp : ∀ p, scope.get .params = some (.place p) → doc'.held p = doc.held p) : fin.Adds scope doc doc' .none := by
  refine ⟨[], [], ?_, ?_, fun _ _ => ⟨.nil, .nil⟩⟩
  · intro p h
    rw [hs p h, List.append_nil]
  · intro p h
    rw [hp p h, List.append_nil]

/-- What is gathered first and then. -/
theorem Adds.append {a b : Parts} (h : fin.Adds scope doc doc₁ a) (hl : doc.Later doc₁)
    (h' : fin.Adds scope doc₁ doc₂ b) : fin.Adds scope doc doc₂ (a.append b) := by
  obtain ⟨ss, ps, hs, hp, hd⟩ := h
  obtain ⟨ss', ps', hs', hp', hd'⟩ := h'
  refine ⟨ss ++ ss', ps ++ ps', ?_, ?_, ?_⟩
  · intro p h
    rw [hs' p h, hs p h, List.append_assoc]
  · intro p h
    rw [hp' p h, hp p h, List.append_assoc]
  · intro depth hle
    have hle' : fin.parts.size ≤ depth + doc₁.parts.size := by
      have := hl.parts.size_le
      omega
    obtain ⟨h₁, h₂⟩ := hd depth hle
    obtain ⟨h₁', h₂'⟩ := hd' depth hle'
    exact ⟨List.rel_append h₁ h₁', List.rel_append h₂ h₂'⟩

/-- What comes through a scope that names the same places. -/
theorem Adds.through {inner : NodeScope} {parts : Parts} (h : fin.Adds inner doc₁ doc' parts)
    (hs : inner.get .statements = scope.get .statements) (hp : inner.get .params = scope.get .params)
    (he : doc₁.parts = doc.parts) : fin.Adds scope doc doc' parts := by
  unfold Adds held at h ⊢
  rw [hs, hp, he] at h
  exact h

/-- What a new place for parameters holds in the end reads as the parameters that were gathered. -/
theorem Adds.params_read {parts : Parts} (h : fin.Adds scope doc doc' parts)
    (hp : scope.get .params = some (.place p)) (hn : doc.held p = []) (hf : fin.held p = doc'.held p) {depth : Nat}
    (hd : fin.parts.size ≤ depth + doc.parts.size) :
    Value.Reads fin.Right (.slot (fin.partValues (depth + 1) p)) (.slot parts.params) := by
  obtain ⟨ss, ps, -, hps, hrel⟩ := h
  have hheld : fin.held p = ps := by rw [hf, hps p hp, hn, List.nil_append]
  have hvalues : fin.partValues (depth + 1) p = (fin.held p).map (fin.itemValue (fin.partValues depth)) := rfl
  rw [hvalues, hheld]
  exact .slot (List.forall₂_map_left_iff.mpr (hrel depth hd).2)

/-- What a new place for statements holds in the end reads as the statements that were gathered. -/
theorem Adds.statements_read {parts : Parts} (h : fin.Adds scope doc doc' parts)
    (hp : scope.get .statements = some (.place p)) (hn : doc.held p = []) (hf : fin.held p = doc'.held p) {depth : Nat}
    (hd : fin.parts.size ≤ depth + doc.parts.size) :
    Value.Reads fin.Right (.slot (fin.partValues (depth + 1) p)) (.slot parts.statements) := by
  obtain ⟨ss, ps, hss, -, hrel⟩ := h
  have hheld : fin.held p = ss := by rw [hf, hss p hp, hn, List.nil_append]
  have hvalues : fin.partValues (depth + 1) p = (fin.held p).map (fin.itemValue (fin.partValues depth)) := rfl
  rw [hvalues, hheld]
  exact .slot (List.forall₂_map_left_iff.mpr (hrel depth hd).1)

/-- Inside anything but an object the names mean what they mean outside. -/
theorem Knows.inner {names : Names} {inner : NodeScope} (h : fin.Knows names scope)
    (ho : inner.get .object = scope.get .object) : fin.Knows names inner :=
  ⟨h.globals, h.objects, fun i hi => h.pictures i (ho ▸ hi), fun i hi => h.sounds i (ho ▸ hi)⟩

end Document

section

open Document

variable {scope inner : NodeScope} {n n₂ n' : Handle} {doc doc₁ doc₂ doc' fin : Document} {b : Branch}
  {forest : List (Tree Value)} {names : Names}

/-- An item that is put into the place for parameters is all that is added. -/
theorem Document.Adds.param {place : Nat} {item : Item} {w : Value} (hw : scope.Within doc)
    (hp : scope.get .params = some (.place place)) (hb : doc₁.Below n) (hparts : doc₁.parts = doc.parts)
    (hshows : ∀ depth, fin.ShowsItem depth item w) : fin.Adds scope doc (doc₁.putItem place n item) ⟨[], [w]⟩ := by
  have hheld : ∀ q, doc₁.held q = doc.held q := by
    intro q
    unfold held
    rw [hparts]
  refine ⟨[], [item], ?_, ?_, fun depth _ => ⟨.nil, .cons (hshows depth) .nil⟩⟩
  · intro q hq
    have hne : q ≠ place := hw.apart q place hq hp
    rw [List.append_nil, ← hheld q]
    exact held_congr (Cells.get?_modify_of_ne _ _ hne)
  · intro q hq
    cases hp.symm.trans hq
    rw [held_putItem_self hb (hparts ▸ hw.params_lt hp), hheld]

/-- A node that takes no children puts at most one item into the places of its scope. -/
theorem Contributes.adds_leaf (hb : Contributes scope n doc b none doc₁) (hs : doc.Settled doc₁ fin)
    (hh : fin.Honest) (hk : fin.Knows names scope) (hn : ∀ field, (b.node.get field).isGiven = true)
    (hl : ∀ v ∈ Tree.literals b.children, v.isGiven = true) (parts : Parts) :
    fin.Adds scope doc doc₁ (b.parts names parts) := by
  have hw := hb.within
  have hbelow := hb.fresh.below
  cases hb.effect with
  | param hkind hp =>
    rw [Branch.parts, hkind]
    exact .param hw hp hbelow rfl fun depth => .self (Node.isGiven_paramValue hn hl)
  | named hkind ht hp =>
    have hparts : b.parts names parts = ⟨[], [b.lookup names]⟩ := by
      unfold Evaluating.targetIn at ht
      unfold Branch.parts Branch.kind
      match hkind' : b.node.kind with
      | .variableParam | .objectParam | .pictureParam | .soundParam => rfl
      | .node | .fragment | .project | .scene | .object | .sprite | .textBox | .picture | .sound | .variable
      | .message | .function | .localVariable | .table | .statement | .script | .param | .namedParam =>
        rw [hkind'] at ht
        cases ht
    rw [hparts]
    refine .param hw hp (hbelow.addReference _ _) rfl fun depth => ?_
    obtain ⟨⟨target', r⟩, hr, he⟩ := hs.references doc.references.size _ (Cells.get?_add_self _ _)
    obtain ⟨rfl, hkr, hnr⟩ : target' = _ ∧ r.kind = b.node.targetCalled ∧ r.name = b.node.get .name := by
      simpa [Reference.ofName] using he
    have hreads : Value.Reads fin.Right _ (.lookup (.given 0) r.kind r.name _) := hh.reads hr (hk.target ht)
    rw [hkr, hnr] at hreads
    exact hreads
  | _ hkind =>
    rw [Branch.parts, hkind]
    exact .nothing fin (fun _ _ => rfl) fun _ _ => rfl

/-- A place that children do not name holds in the end what it held before them. -/
theorem Fills.held_of_ne (hc : Fills inner forest n doc n' doc') {q : Nat} (hq : q < doc.parts.size)
    (hs : inner.get .statements ≠ some (.place q)) (hp : inner.get .params ≠ some (.place q)) :
    doc'.held q = doc.held q :=
  held_congr (hc.get?_part_of_ne hq hs hp)

/-- An old place holds what it held when another one is added. -/
theorem Document.held_addPlace_of_lt {q : Nat} (hq : q < doc.parts.size) : doc.addPlace.held q = doc.held q :=
  held_congr (Cells.get?_add_of_ne _ _ (Nat.ne_of_lt hq))

/-- A place into which nothing is put holds what it held. -/
theorem Document.held_putItem_of_ne {place q : Nat} (h : q ≠ place) (item : Item) :
    (doc.putItem place n item).held q = doc.held q :=
  held_congr (Cells.get?_modify_of_ne _ _ h)

/-- A place that was new is there in the end. -/
theorem Document.Settled.new_lt {q : Nat} (hs : doc.Settled doc' fin) (hq : doc.parts.size ≤ q)
    (hq' : q < doc'.parts.size) : q < fin.parts.size ∧ fin.held q = doc'.held q := by
  have hget := hs.parts q hq hq'
  refine ⟨Cells.isSome_get?_iff.mp ?_, held_congr hget⟩
  rw [hget]
  exact Cells.isSome_get?_iff.mpr hq'

/-- Objects and functions have a place of their own, and the places around them gather nothing. -/
theorem Fills.adds_closed (hc : Fills inner forest n doc₁ n' doc') (hw : scope.Within doc)
    (hparts : doc₁.parts = doc.addPlace.parts) (hs : inner.get .statements = some (.place doc.parts.size))
    (hp : inner.get .params = none) : fin.Adds scope doc doc' .none := by
  have hheld : ∀ q, q < doc.parts.size → doc'.held q = doc.held q := by
    intro q hq
    have hq₁ : q < doc₁.parts.size := by
      rw [hparts]
      exact Nat.lt_of_lt_of_le hq (Later.addPlace doc).parts.size_le
    have hne : inner.get .statements ≠ some (.place q) := by
      rw [hs]
      intro he
      cases he
      exact Nat.lt_irrefl _ hq
    have hne' : inner.get .params ≠ some (.place q) := by
      rw [hp]
      intro he
      cases he
    rw [hc.held_of_ne hq₁ hne hne', ← held_addPlace_of_lt hq]
    unfold held
    rw [hparts]
  refine .nothing fin (fun q hq => ?_) fun q hq => ?_
  · have hlt := hw.statements_lt hq
    exact hheld q hlt
  · have hlt := hw.params_lt hq
    exact hheld q hlt

/-- A statement is a block of the parameters inside it; the statements inside it go on to its own place. -/
theorem Fills.adds_statement {place : Nat} {parts : Parts} (hplace : scope.get .statements = some (.place place))
    (hc : Fills (scope.insideStatement doc.parts.size) forest (n + 1)
      (doc.addPlace.putItem place n (.block doc.parts.size)) n' doc')
    (hw : scope.Within doc) (hb : doc.Below n) (hs : doc.Settled doc' fin)
    (hin : fin.Adds (scope.insideStatement doc.parts.size) (doc.addPlace.putItem place n (.block doc.parts.size)) doc'
      parts) :
    fin.Adds scope doc doc' ⟨.slot parts.params :: parts.statements, []⟩ := by
  have hlt := hw.statements_lt hplace
  have hs' : (scope.insideStatement doc.parts.size).get .statements = some (.place place) := by
    simpa [NodeScope.insideStatement] using hplace
  have hp' : (scope.insideStatement doc.parts.size).get .params = some (.place doc.parts.size) := by
    simp [NodeScope.insideStatement]
  have hsize : (doc.addPlace.putItem place n (.block doc.parts.size)).parts.size = doc.parts.size + 1 := by
    simp [putItem, addPlace]
  have hle := hc.later.parts.size_le
  obtain ⟨hfin, hheld⟩ := hs.new_lt (Nat.le_refl _) (by omega)
  have hnew : (doc.addPlace.putItem place n (.block doc.parts.size)).held doc.parts.size = [] := by
    rw [held_putItem_of_ne (Nat.ne_of_gt hlt), held_addPlace_self]
  obtain ⟨ss, ps, hss, hps, hrel⟩ := id hin
  refine ⟨.block doc.parts.size :: ss, [], ?_, ?_, ?_⟩
  · intro q hq
    cases hplace.symm.trans hq
    have hlt' : place < doc.addPlace.parts.size := Nat.lt_of_lt_of_le hlt (Later.addPlace doc).parts.size_le
    rw [hss place hs', held_putItem_self hb.addPlace hlt', held_addPlace_of_lt hlt, List.append_assoc]
    rfl
  · intro q hq
    have hltq := hw.params_lt hq
    have hne : q ≠ place := fun he => hw.apart place q hplace hq he.symm
    rw [hc.held_of_ne (by omega) ?_ ?_, held_putItem_of_ne hne, held_addPlace_of_lt hltq, List.append_nil]
    · rw [hs']
      intro he
      cases he
      exact hne rfl
    · rw [hp']
      intro he
      cases he
      exact Nat.lt_irrefl _ hltq
  · intro depth hd
    obtain ⟨depth, rfl⟩ : ∃ d, depth = d + 1 := ⟨depth - 1, by omega⟩
    refine ⟨.cons ?_ (hrel (depth + 1) (by omega)).1, .nil⟩
    exact hin.params_read hp' hnew hheld (by omega)

/-- A script holds the parameters and the statements inside it. -/
theorem Fills.adds_script {place : Nat} {parts : Parts} {head : ScriptHead}
    (hplace : scope.get .params = some (.place place))
    (hc : Fills (scope.insideScript doc.parts.size (doc.parts.size + 1)) forest (n + 1)
      (doc.addPlace.addPlace.putItem place n (.script head doc.parts.size (doc.parts.size + 1))) n' doc')
    (hw : scope.Within doc) (hb : doc.Below n) (hs : doc.Settled doc' fin)
    (hin : fin.Adds (scope.insideScript doc.parts.size (doc.parts.size + 1))
      (doc.addPlace.addPlace.putItem place n (.script head doc.parts.size (doc.parts.size + 1))) doc' parts) :
    fin.Adds scope doc doc' ⟨[], [head.toRecord (.slot parts.params) (.slot parts.statements)]⟩ := by
  have hlt := hw.params_lt hplace
  have hs' : (scope.insideScript doc.parts.size (doc.parts.size + 1)).get .statements =
      some (.place (doc.parts.size + 1)) := by
    simp [NodeScope.insideScript]
  have hp' : (scope.insideScript doc.parts.size (doc.parts.size + 1)).get .params =
      some (.place doc.parts.size) := by
    simp [NodeScope.insideScript]
  have hone : doc.addPlace.parts.size = doc.parts.size + 1 := by simp [addPlace]
  have hsize : (doc.addPlace.addPlace.putItem place n
      (.script head doc.parts.size (doc.parts.size + 1))).parts.size = doc.parts.size + 2 := by
    simp [putItem, addPlace]
  have hle := hc.later.parts.size_le
  obtain ⟨hfin, hheld⟩ := hs.new_lt (Nat.le_refl _) (by omega)
  obtain ⟨-, hheld'⟩ := hs.new_lt (Nat.le_succ _) (by omega)
  have hold : ∀ q, q < doc.parts.size → doc.addPlace.addPlace.held q = doc.held q := by
    intro q hq
    rw [held_addPlace_of_lt (by omega), held_addPlace_of_lt hq]
  have hnew : (doc.addPlace.addPlace.putItem place n (.script head doc.parts.size (doc.parts.size + 1))).held
      doc.parts.size = [] := by
    rw [held_putItem_of_ne (by omega), held_addPlace_of_lt (by omega), held_addPlace_self]
  have hnew' : (doc.addPlace.addPlace.putItem place n (.script head doc.parts.size (doc.parts.size + 1))).held
      (doc.parts.size + 1) = [] := by
    rw [held_putItem_of_ne (by omega), ← hone, held_addPlace_self]
  have hfree : ∀ q, q < doc.parts.size →
      (scope.insideScript doc.parts.size (doc.parts.size + 1)).get .statements ≠ some (.place q) ∧
        (scope.insideScript doc.parts.size (doc.parts.size + 1)).get .params ≠ some (.place q) := by
    intro q hq
    rw [hs', hp']
    constructor
    · intro he
      cases he
      omega
    · intro he
      cases he
      omega
  refine ⟨[], [.script head doc.parts.size (doc.parts.size + 1)], ?_, ?_, ?_⟩
  · intro q hq
    have hltq := hw.statements_lt hq
    have hne : q ≠ place := hw.apart q place hq hplace
    rw [hc.held_of_ne (by omega) (hfree q hltq).1 (hfree q hltq).2, held_putItem_of_ne hne, hold q hltq,
      List.append_nil]
  · intro q hq
    cases hplace.symm.trans hq
    rw [hc.held_of_ne (by omega) (hfree place hlt).1 (hfree place hlt).2,
      held_putItem_self hb.addPlace.addPlace (by simp only [addPlace, Cells.size_add]; omega), hold place hlt]
  · intro depth hd
    obtain ⟨depth, rfl⟩ : ∃ d, depth = d + 1 := ⟨depth - 1, by omega⟩
    refine ⟨.nil, .cons ?_ .nil⟩
    exact .script head (hin.params_read hp' hnew hheld (by omega))
      (hin.statements_read hs' hnew' hheld' (by omega))

/-- A node that takes children gathers for the places of its scope what `Branch.parts` says. -/
theorem Contributes.adds_branch (hb : Contributes scope n doc b (some inner) doc₁)
    (hc : Fills inner b.children (n + 1) doc₁ n₂ doc₂) (hs : doc.Settled doc₂ fin) (hk : fin.Knows names scope)
    (hadds : fin.Knows names inner → fin.Adds inner doc₁ doc₂ (Tree.partsOf names b.children)) :
    fin.Adds scope doc doc₂ (b.parts names (Tree.partsOf names b.children)) := by
  have hw := hb.within
  have hbelow := hb.fresh.below
  have hobject := hb.effect.get_object
  cases hb.effect with
  | fragment hkind =>
    rw [Branch.parts, hkind]
    exact (hadds (hk.inner rfl)).through rfl rfl rfl
  | project hkind =>
    rw [if_neg (by rw [hkind]; decide)] at hobject
    rw [Branch.parts, hkind]
    exact (hadds (hk.inner hobject)).through (by simp) (by simp) rfl
  | scene hkind =>
    rw [if_neg (by rw [hkind]; decide)] at hobject
    rw [Branch.parts, hkind]
    exact (hadds (hk.inner hobject)).through (by simp) (by simp) rfl
  | object hkind =>
    have hparts : b.parts names (Tree.partsOf names b.children) = .none := by
      unfold Branch.parts
      cases hkind' : b.kind <;> first | rfl | (rw [hkind'] at hkind; cases hkind)
    rw [hparts]
    exact hc.adds_closed hw rfl (by simp [NodeScope.insideObject]) (by simp [NodeScope.insideObject])
  | function hkind =>
    rw [Branch.parts, hkind]
    exact hc.adds_closed hw rfl (by simp [NodeScope.insideFunction]) (by simp [NodeScope.insideFunction])
  | statement hkind hplace =>
    rw [if_neg (by rw [hkind]; decide)] at hobject
    rw [Branch.parts, hkind]
    exact hc.adds_statement hplace hw hbelow hs (hadds (hk.inner hobject))
  | script hkind hplace =>
    rw [if_neg (by rw [hkind]; decide)] at hobject
    rw [Branch.parts, hkind]
    exact hc.adds_script hplace hw hbelow hs (hadds (hk.inner hobject))

/-- What a forest gathers for the places of its scope reads, in a finished document, as its parts of scripts. -/
theorem Fills.adds (h : Fills scope forest n doc n' doc') (hs : doc.Settled doc' fin) (hh : fin.Honest)
    (hk : fin.Knows names scope) (hg : Tree.AllGiven forest) :
    fin.Adds scope doc doc' (Tree.partsOf names forest) := by
  induction h with
  | nil => exact .nothing fin (fun _ _ => rfl) fun _ _ => rfl
  | literal v _ ih =>
    rw [Tree.AllGiven] at hg
    exact ih hs hk hg.2
  | leaf hb hc hr ih =>
    rw [Tree.AllGiven, Tree.Given] at hg
    rw [Tree.partsOf, Tree.parts]
    refine .append ?_ hb.effect.later (ih (hs.after hb.effect.later) hk hg.2)
    exact hb.adds_leaf (hs.before hr hb.within) hh hk hg.1.1 hg.1.2.literals _
  | branch hb hc hr ihc ihr =>
    rw [Tree.AllGiven, Tree.Given] at hg
    rw [Tree.partsOf, Tree.parts]
    have hs₂ := hs.before hr hb.within
    have hl := hb.effect.later.trans hc.later
    refine .append ?_ hl (ihr (hs.after hl) hk hg.2)
    exact hb.adds_branch hc hs₂ hk fun hk' => ihc (hs₂.after hb.effect.later) hk' hg.1.2

end

end SceneTree
