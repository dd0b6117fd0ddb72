import SceneTree.Proofs.Translation.Naming

/-!
# Values from outside

A lookup that a parameter of a script made carries the number of the parameter. No value from outside holds such a
lookup, and neither does anything that is read off values from outside.
-/

namespace SceneTree

namespace Value

mutual

/-- Whether no lookup in a value claims to come from a parameter of a script. That holds of all values from outside. -/
def isGiven : Value → Bool
  | .lookup (.param _) _ _ _ => false
  | .list items | .tuple items | .slot items | .record _ items => areGiven items
  | .map entries => areGivenEntries entries
  | _ => true

/-- Whether some values are given. -/
def areGiven : List Value → Bool
  | [] => true
  | v :: rest => isGiven v && areGiven rest

/-- Whether the keys and the values of some entries are given. -/
def areGivenEntries : List (Value × Value) → Bool
  | [] => true
  | (k, v) :: rest => isGiven k && isGiven v && areGivenEntries rest

end

/-- Values are given when each of them is. -/
theorem areGiven_iff {vs : List Value} : areGiven vs = true ↔ ∀ v ∈ vs, v.isGiven = true := by
  induction vs with
  | nil => simp [areGiven]
  | cons v rest ih => simp [areGiven, ih]

/-- Entries are given when the key and the value of each of them is. -/
theorem areGivenEntries_iff {entries : List (Value × Value)} :
    areGivenEntries entries = true ↔ ∀ p ∈ entries, p.1.isGiven = true ∧ p.2.isGiven = true := by
  induction entries with
  | nil => simp [areGivenEntries]
  | cons p rest ih =>
    obtain ⟨k, v⟩ := p
    simp [areGivenEntries, ih]

/-- The items of a given value are given. -/
theorem isGiven_of_items {v : Value} {vs : List Value} (h : v.isGiven = true) (hi : v.items = .ok vs) :
    ∀ w ∈ vs, w.isGiven = true := by
  cases v with
  | str s =>
    cases hi
    intro w hw
    obtain ⟨c, -, rfl⟩ := List.mem_map.mp hw
    rfl
  | list items | tuple items | slot items =>
    cases hi
    exact areGiven_iff.mp h
  | map entries =>
    cases hi
    intro w hw
    obtain ⟨p, hp, rfl⟩ := List.mem_map.mp hw
    exact (areGivenEntries_iff.mp h p hp).1
  | _ => cases hi

/-- A given value is a pair of given values. -/
theorem isGiven_of_toPair {v : Value} {p : Value × Value} (h : v.isGiven = true) (hp : v.toPair = .ok p) :
    p.1.isGiven = true ∧ p.2.isGiven = true := by
  unfold toPair at hp
  obtain ⟨vs, hi, hp⟩ := Outcome.bind_eq_ok_iff.mp hp
  have hvs := isGiven_of_items h hi
  split at hp
  · split at hp
    · cases hp
      exact ⟨hvs _ (by simp), hvs _ (by simp)⟩
    · cases hp
  · cases hp

/-- Entries stay given when a given value is put at a given key. -/
theorem isGiven_of_mem_put {entries : Entries} {key v : Value} {p : Value × Value}
    (h : ∀ q ∈ entries, q.1.isGiven = true ∧ q.2.isGiven = true) (hk : key.isGiven = true) (hv : v.isGiven = true)
    (hp : p ∈ entries.put key v) : p.1.isGiven = true ∧ p.2.isGiven = true := by
  induction entries with
  | nil =>
    rw [Entries.put, List.mem_singleton] at hp
    rw [hp]
    exact ⟨hk, hv⟩
  | cons q rest ih =>
    obtain ⟨k, w⟩ := q
    have hq := h (k, w) List.mem_cons_self
    rw [Entries.put] at hp
    split at hp
    · rcases List.mem_cons.mp hp with rfl | hp
      · exact ⟨hq.1, hv⟩
      · exact h p (List.mem_cons_of_mem _ hp)
    · rcases List.mem_cons.mp hp with rfl | hp
      · exact hq
      · exact ih (fun q hq => h q (List.mem_cons_of_mem _ hq)) hp

/-- The map of given pairs is given. -/
theorem isGiven_of_mem_ofPairs {pairs : List (Value × Value)}
    (h : ∀ q ∈ pairs, q.1.isGiven = true ∧ q.2.isGiven = true) :
    ∀ p ∈ Entries.ofPairs pairs, p.1.isGiven = true ∧ p.2.isGiven = true := by
  unfold Entries.ofPairs
  have hfold : ∀ entries : Entries, (∀ q ∈ entries, q.1.isGiven = true ∧ q.2.isGiven = true) →
      ∀ p ∈ pairs.foldl (fun entries q => entries.put q.1 q.2) entries,
        p.1.isGiven = true ∧ p.2.isGiven = true := by
    induction pairs with
    | nil => exact fun _ he => he
    | cons q rest ih =>
      intro entries he
      obtain ⟨hk, hv⟩ := h q List.mem_cons_self
      refine ih (fun r hr => h r (List.mem_cons_of_mem _ hr)) _ fun p hp => ?_
      exact isGiven_of_mem_put he hk hv hp
  exact hfold [] (List.forall_mem_nil _)

/-- A given value as a map is given. -/
theorem isGiven_map_entryList {v : Value} (h : v.isGiven = true) : (Value.map v.entryList).isGiven = true := by
  unfold entryList
  cases he : v.toEntries with
  | error fault => rfl
  | ok entries =>
    refine areGivenEntries_iff.mpr ?_
    unfold toEntries at he
    split at he
    · cases he
      exact areGivenEntries_iff.mp h
    · obtain ⟨vs, hi, he⟩ := Outcome.bind_eq_ok_iff.mp he
      obtain ⟨pairs, hpairs, he⟩ := Outcome.bind_eq_ok_iff.mp he
      cases he
      refine isGiven_of_mem_ofPairs fun p hp => ?_
      obtain ⟨w, hw, hp⟩ := Outcome.mem_of_mapM_eq_ok hpairs p hp
      exact isGiven_of_toPair (isGiven_of_items h hi w hw) hp

end Value

namespace Tree

variable {ι : Type}

mutual

/-- All values in a tree are given: no lookup in them claims to come from a parameter. -/
def Given : Tree ι → Prop
  | .node _ data children => (∀ field, (data.get field).isGiven = true) ∧ AllGiven children
  | .literal v => v.isGiven = true

/-- All values in some trees are given. -/
def AllGiven : List (Tree ι) → Prop
  | [] => True
  | t :: rest => Given t ∧ AllGiven rest

end

/-- The plain values among given trees are given. -/
theorem AllGiven.literals {forest : List (Tree ι)} (h : AllGiven forest) :
    ∀ v ∈ Tree.literals forest, v.isGiven = true := by
  induction forest with
  | nil => exact List.forall_mem_nil _
  | cons t rest ih =>
    rw [AllGiven] at h
    cases t with
    | node id data children => exact ih h.2
    | literal w =>
      intro v hv
      rw [Tree.literals, List.mem_cons] at hv
      rcases hv with rfl | hv
      · have hw := h.1
        rw [Given] at hw
        exact hw
      · exact ih h.2 v hv

end Tree

/-- The value of a parameter is given when everything on it and in it is. -/
theorem Node.isGiven_paramValue {node : Node} {literals : List Value} (hn : ∀ field, (node.get field).isGiven = true)
    (hl : ∀ v ∈ literals, v.isGiven = true) : (node.paramValue literals).isGiven = true := by
  unfold paramValue paramValues
  split
  · cases literals with
    | nil => rfl
    | cons v rest => exact hl v List.mem_cons_self
  · exact hn .value

namespace Tree

mutual

/-- A given tree is given also with ids. -/
theorem Given.named : {tree : Tree Nat} → tree.Given → ∀ {t : Tree Value} {supply supply' : IdSupply},
    tree.named supply = (.ok t, supply') → t.Given
  | .node mark data children, h, t, supply, supply', hn => by
    rw [Given] at h
    rw [Tree.named] at hn
    obtain ⟨id, s₁, -, hn⟩ := Attempt.bind_eq_ok_iff.mp hn
    obtain ⟨ts, s₂, hts, hn⟩ := Attempt.bind_eq_ok_iff.mp hn
    cases hn
    rw [Given]
    exact ⟨h.1, AllGiven.named h.2 hts⟩
  | .literal v, h, t, supply, supply', hn => by
    rw [Tree.named] at hn
    cases hn
    rw [Given] at h ⊢
    exact h

/-- Given trees are given also with ids. -/
theorem AllGiven.named : {forest : List (Tree Nat)} → AllGiven forest → ∀ {ts : List (Tree Value)}
    {supply supply' : IdSupply}, allNamed forest supply = (.ok ts, supply') → AllGiven ts
  | [], _, ts, supply, supply', hn => by
    rw [allNamed] at hn
    cases hn
    rw [AllGiven]
    trivial
  | tree :: rest, h, ts, supply, supply', hn => by
    rw [AllGiven] at h
    rw [allNamed] at hn
    obtain ⟨t, s₁, ht, hn⟩ := Attempt.bind_eq_ok_iff.mp hn
    obtain ⟨us, s₂, hus, hn⟩ := Attempt.bind_eq_ok_iff.mp hn
    cases hn
    rw [AllGiven]
    exact ⟨Given.named h.1 ht, AllGiven.named h.2 hus⟩

end

section

variable {κ α : Type} {step : κ → Branch → κ} {piece : κ → Branch → Option α} {P : α → Prop}

/-- What the nodes of given trees offer has a property if what each of them offers has it. -/
theorem AllGiven.gatherOf (hp : ∀ c b x, (∀ field, (b.node.get field).isGiven = true) → piece c b = some x → P x)
    {forest : List (Tree Value)} (h : AllGiven forest) {c : κ} : ∀ x ∈ Tree.gatherOf step piece c forest, P x := by
  induction forest using forest_induction generalizing c with
  | nil => exact List.forall_mem_nil _
  | literal v rest ih =>
    rw [AllGiven] at h
    exact ih h.2
  | node b rest ihc ihr =>
    rw [AllGiven, Given] at h
    intro x hx
    rcases mem_gatherOf_node.mp hx with hx | hx | hx
    · exact hp c b x h.1.1 hx
    · exact ihc h.1.2 x hx
    · exact ihr h.2 x hx

end

/-- The tables of given trees are given. -/
theorem AllGiven.tables {forest : List (Tree Value)} (h : AllGiven forest) :
    ∀ table ∈ each Branch.table? forest, (Value.map table).isGiven = true := by
  refine AllGiven.gatherOf (fun _ b table hb htable => ?_) h
  obtain ⟨-, hdata⟩ := Option.ite_none_right_eq_some.mp htable
  cases hdata
  exact Value.isGiven_map_entryList (hb .data)

end Tree

end SceneTree
