import SceneTree.Proofs.Evaluation.Walk
import SceneTree.Proofs.Identifier.Draws

/-!
# Whom the ids belong to

An evaluation keeps three tables of ids: the id that each handle keeps, the handle that each id belongs to, and the pool
of the ids in use. `Owned` says that they agree. It holds when an evaluation begins, and every visit keeps it, whether
the node takes an id for the first time, keeps the one it has, exchanges it for an authored one or is refused.
-/

namespace SceneTree

namespace Value

/-- A text is the same as a value only if the value is the text. -/
theorem str_beq_iff {s : String} {v : Value} : (Value.str s == v) = true ↔ v = .str s := by
  change same (.str s) v = true ↔ _
  cases v with
  | str t =>
    simp only [same, beq_iff_eq, str.injEq]
    exact eq_comm
  | _ => simp [same, sameNumber]

/-- A value is the same as a text only if it is the text. -/
theorem beq_str_iff {s : String} {v : Value} : (v == Value.str s) = true ↔ v = .str s := by
  change same v (.str s) = true ↔ _
  cases v <;> simp [same, sameNumber, sameNumber.sameInt]

/-- A value is a text or null. -/
def IsTextOrNull (v : Value) : Prop := v = .null ∨ ∃ s, v = .str s

instance (v : Value) : Decidable v.IsTextOrNull :=
  match v with
  | .null => .isTrue (.inl rfl)
  | .str s => .isTrue (.inr ⟨s, rfl⟩)
  | .bool _ | .int _ | .float _ | .notANumber _ | .list _ | .tuple _ | .map _ | .slot _ | .lookup .. | .record .. =>
    .isFalse (by rintro (h | ⟨_, h⟩) <;> cases h)

end Value

namespace Ownership

/-- The handles of the ids: every key is a text, and no two are the same. -/
structure Keyed (owners : List (Value × Handle)) : Prop where
  text : ∀ p ∈ owners, ∃ s, p.1 = .str s
  nodup : (owners.map (·.1)).Nodup

/-- The handle of an id. -/
def find? (owners : List (Value × Handle)) (id : Value) : Option Handle := (owners.find? (·.1 == id)).map (·.2)

/-- The table without an id. -/
def release (owners : List (Value × Handle)) (id : Value) : List (Value × Handle) := owners.eraseP (·.1 == id)

/-- The table in which an id belongs to a handle. -/
def claim (owners : List (Value × Handle)) (id : Value) (handle : Handle) : List (Value × Handle) :=
  if owners.any (·.1 == id) then owners.map fun p => if p.1 == id then (p.1, handle) else p
  else owners ++ [(id, handle)]

/-- An id is found in a table of texts if and only if it stands there with the handle. -/
theorem find?_eq_some_iff {owners : List (Value × Handle)} (h : Keyed owners) {id : Value} {handle : Handle} :
    find? owners id = some handle ↔ (id, handle) ∈ owners := by
  induction owners with
  | nil => simp [find?]
  | cons p rest ih =>
    obtain ⟨v, k⟩ := p
    obtain ⟨s, hs⟩ := h.text (v, k) List.mem_cons_self
    simp only at hs
    subst hs
    have hn : ∀ q ∈ rest, q.1 ≠ .str s := by
      intro q hq he
      have := h.nodup
      simp only [List.map_cons, List.nodup_cons, List.mem_map, not_exists, not_and] at this
      exact this.1 q hq he
    have ih := ih ⟨fun q hq => h.text q (List.mem_cons_of_mem _ hq), (List.nodup_cons.mp h.nodup).2⟩
    unfold find? at ih ⊢
    by_cases he : (Value.str s == id) = true
    · rw [List.find?_cons_of_pos (p := fun p : Value × Handle => p.1 == id) he]
      rw [Value.str_beq_iff] at he
      subst he
      constructor
      · intro hk
        cases hk
        exact List.mem_cons_self
      · intro hm
        rcases List.mem_cons.mp hm with hm | hm
        · cases hm
          rfl
        · exact absurd rfl (hn _ hm)
    · rw [List.find?_cons_of_neg (p := fun p : Value × Handle => p.1 == id) he, ih]
      have hne : id ≠ .str s := fun h => he (Value.str_beq_iff.mpr h)
      simp [hne]

/-- Of a list in which at most one item satisfies a test, the items that do not are left. -/
theorem mem_eraseP_iff {α : Type} {q : α → Bool} {l : List α} (h : l.Pairwise fun a b => q a = true → q b = false)
    {x : α} : x ∈ l.eraseP q ↔ x ∈ l ∧ q x = false := by
  induction l with
  | nil => simp
  | cons a rest ih =>
    obtain ⟨ha, hr⟩ := List.pairwise_cons.mp h
    cases hq : q a with
    | true =>
      rw [List.eraseP_cons_of_pos hq]
      constructor
      · exact fun hx => ⟨List.mem_cons_of_mem _ hx, ha x hx hq⟩
      · rintro ⟨hx, hqx⟩
        rcases List.mem_cons.mp hx with rfl | hx
        · rw [hq] at hqx
          cases hqx
        · exact hx
    | false =>
      rw [List.eraseP_cons_of_neg (by simp [hq]), List.mem_cons, List.mem_cons, ih hr]
      constructor
      · rintro (rfl | ⟨hx, hqx⟩)
        · exact ⟨.inl rfl, hq⟩
        · exact ⟨.inr hx, hqx⟩
      · rintro ⟨rfl | hx, hqx⟩
        · exact .inl rfl
        · exact .inr ⟨hx, hqx⟩

/-- What is left of a table of texts when an id is released: all that stands under other ids. -/
theorem mem_release {owners : List (Value × Handle)} (h : Keyed owners) {s : String} {p : Value × Handle} :
    p ∈ release owners (.str s) ↔ p ∈ owners ∧ p.1 ≠ .str s := by
  have hk : owners.Pairwise fun a b => (a.1 == Value.str s) = true → (b.1 == Value.str s) = false := by
    refine (List.pairwise_map.mp h.nodup).imp fun hne ha => Bool.eq_false_iff.mpr fun hb => hne ?_
    exact (Value.beq_str_iff.mp ha).trans (Value.beq_str_iff.mp hb).symm
  rw [release, mem_eraseP_iff hk, Bool.eq_false_iff, ne_eq, Value.beq_str_iff]

theorem Keyed.release {owners : List (Value × Handle)} (h : Keyed owners) (id : Value) :
    Keyed (release owners id) := by
  have hs : (Ownership.release owners id).Sublist owners := List.eraseP_sublist
  exact ⟨fun p hp => h.text p (hs.subset hp), h.nodup.sublist (hs.map _)⟩

/-- What stands in a table of texts when an id was claimed: the claim, and all that stood under other ids. -/
theorem mem_claim {owners : List (Value × Handle)} {s : String} {handle : Handle} {p : Value × Handle} :
    p ∈ claim owners (.str s) handle ↔ p = (.str s, handle) ∨ p ∈ owners ∧ p.1 ≠ .str s := by
  unfold claim
  split
  · next ha =>
    obtain ⟨q, hq, he⟩ := List.any_eq_true.mp ha
    rw [Value.beq_str_iff] at he
    rw [List.mem_map]
    constructor
    · rintro ⟨r, hr, rfl⟩
      by_cases hrs : r.1 = .str s
      · rw [if_pos (Value.beq_str_iff.mpr hrs), hrs]
        exact .inl rfl
      · rw [if_neg (mt Value.beq_str_iff.mp hrs)]
        exact .inr ⟨hr, hrs⟩
    · rintro (rfl | ⟨hp, hs⟩)
      · exact ⟨q, hq, by rw [if_pos (Value.beq_str_iff.mpr he), he]⟩
      · exact ⟨p, hp, if_neg (mt Value.beq_str_iff.mp hs)⟩
  · next ha =>
    have hn : ∀ q ∈ owners, q.1 ≠ .str s := by
      intro q hq he
      exact ha (List.any_eq_true.mpr ⟨q, hq, Value.beq_str_iff.mpr he⟩)
    rw [List.mem_append, List.mem_singleton]
    constructor
    · rintro (hp | h)
      · exact .inr ⟨hp, hn _ hp⟩
      · exact .inl h
    · rintro (h | ⟨hp, -⟩)
      · exact .inr h
      · exact .inl hp

theorem Keyed.claim {owners : List (Value × Handle)} (h : Keyed owners) (s : String) (handle : Handle) :
    Keyed (claim owners (.str s) handle) := by
  constructor
  · intro p hp
    rcases mem_claim.mp hp with rfl | ⟨hp, -⟩
    · exact ⟨s, rfl⟩
    · exact h.text p hp
  · unfold Ownership.claim
    split
    · next ha =>
      have hk : (owners.map fun p => if p.1 == Value.str s then (p.1, handle) else p).map (·.1) =
          owners.map (·.1) := by
        rw [List.map_map]
        refine List.map_congr_left fun p _ => ?_
        simp only [Function.comp]
        split <;> rfl
      rw [hk]
      exact h.nodup
    · next ha =>
      rw [List.map_append, List.nodup_append]
      refine ⟨h.nodup, by simp, ?_⟩
      intro v hv w hw he
      obtain ⟨q, hq, rfl⟩ := List.mem_map.mp hv
      simp only [List.map_cons, List.map_nil, List.mem_singleton] at hw
      exact ha (List.any_eq_true.mpr ⟨q, hq, Value.beq_str_iff.mpr (he.trans hw)⟩)

end Ownership

namespace Evaluation

/-- The three tables of ids agree: every node has one handle; a handle keeps an id if and only if the id belongs to it;
and the ids that are kept are in use. -/
structure Owned (e : Evaluation) : Prop where
  met : e.met.Nodup
  bound : ∀ {handle id}, e.idOf? handle = some id → handle < e.met.length
  keyed : Ownership.Keyed e.owners
  inverse : ∀ handle id, e.ownerOf? id = some handle ↔ e.idOf? handle = some id
  issued : ∀ {handle id}, e.idOf? handle = some id → e.supply.pool.contains id = true

variable {e : Evaluation}

/-- The tables agree when an evaluation begins. -/
theorem Owned.start (supply : IdSupply) : Owned (start supply) where
  met := List.nodup_nil
  bound := by
    intro handle id h
    cases h
  keyed := ⟨by simp [Evaluation.start], List.nodup_nil⟩
  inverse := by simp [ownerOf?, idOf?, Evaluation.start]
  issued := by
    intro handle id h
    cases h

theorem Owned.mem_owners_iff (h : Owned e) {handle : Handle} {id : Value} :
    (id, handle) ∈ e.owners ↔ e.idOf? handle = some id :=
  (Ownership.find?_eq_some_iff h.keyed).symm.trans (h.inverse handle id)

/-- The ids that are kept are texts. -/
theorem Owned.text (h : Owned e) {handle : Handle} {id : Value} (hi : e.idOf? handle = some id) : ∃ s, id = .str s :=
  h.keyed.text _ (h.mem_owners_iff.mpr hi)

/-- No two handles keep the same id. -/
theorem Owned.idOf?_injective (h : Owned e) {handle handle' : Handle} {id : Value} (hi : e.idOf? handle = some id)
    (hi' : e.idOf? handle' = some id) : handle = handle' :=
  Option.some_inj.mp (((h.inverse handle id).mpr hi).symm.trans ((h.inverse handle' id).mpr hi'))

/-- An assigned id is kept by its handle, and the other handles keep theirs. -/
theorem idOf?_assign (e : Evaluation) (handle : Handle) (id : Value) (handle' : Handle) :
    (e.assign handle id).idOf? handle' = if handle' = handle then some id else e.idOf? handle' := by
  change ((handle, id) :: e.ids.eraseP fun p => p.1 == handle).lookup handle' = _
  rw [List.lookup_cons]
  split
  · next h => rw [if_pos (by simpa using h)]
  · next h =>
    have hne : handle' ≠ handle := by simpa using h
    rw [if_neg hne]
    unfold idOf?
    induction e.ids with
    | nil => rfl
    | cons p rest ih =>
      by_cases hp : (p.1 == handle) = true
      · rw [List.eraseP_cons_of_pos (p := fun p : Handle × Value => p.1 == handle) hp, List.lookup_cons]
        have hb : (handle' == p.1) = false := by
          rw [beq_iff_eq] at hp
          simp [hp, hne]
        rw [hb]
      · rw [List.eraseP_cons_of_neg (p := fun p : Handle × Value => p.1 == handle) hp, List.lookup_cons,
          List.lookup_cons, ih]

/-- What is left of the owners of ids when a handle takes another one: all that belongs to others. -/
theorem Owned.mem_kept (h : Owned e) {handle handle' : Handle} {s : String} {id : Value} :
    ((id, handle') ∈ (match e.idOf? handle with
        | some old => if old == Value.str s then e.owners else Ownership.release e.owners old
        | none => e.owners) ∧ id ≠ .str s) ↔
      e.idOf? handle' = some id ∧ handle' ≠ handle ∧ id ≠ .str s := by
  cases ho : e.idOf? handle with
  | none =>
    simp only [h.mem_owners_iff]
    constructor
    · rintro ⟨hi, hs⟩
      exact ⟨hi, by rintro rfl; simp [ho] at hi, hs⟩
    · rintro ⟨hi, -, hs⟩
      exact ⟨hi, hs⟩
  | some old =>
    obtain ⟨t, rfl⟩ := h.text ho
    have hne : ∀ {handle' id}, e.idOf? handle' = some id → (id ≠ .str t ↔ handle' ≠ handle) := by
      intro handle' id hi
      constructor
      · rintro hid rfl
        exact hid (Option.some_inj.mp (hi.symm.trans ho))
      · rintro hh rfl
        exact hh (h.idOf?_injective hi ho)
    simp only
    split
    · next hts =>
      rw [Value.beq_str_iff] at hts
      rw [h.mem_owners_iff]
      constructor
      · rintro ⟨hi, hs⟩
        exact ⟨hi, (hne hi).mp (hts ▸ hs), hs⟩
      · rintro ⟨hi, -, hs⟩
        exact ⟨hi, hs⟩
    · rw [Ownership.mem_release h.keyed, h.mem_owners_iff]
      constructor
      · rintro ⟨⟨hi, hid⟩, hs⟩
        exact ⟨hi, (hne hi).mp hid, hs⟩
      · rintro ⟨hi, hh, hs⟩
        exact ⟨⟨hi, (hne hi).mpr hh⟩, hs⟩

/-- The tables still agree when a handle takes an id that belongs to no other one and is put in use. -/
theorem Owned.assign (h : Owned e) {handle : Handle} {s : String} (hh : handle < e.met.length)
    (hs : ∀ handle', e.ownerOf? (.str s) = some handle' → handle' = handle) {pool : IdPool} (source : Entropy)
    (hpool : ∀ id, e.supply.pool.contains id = true → pool.contains id = true)
    (hsp : pool.contains (.str s) = true) :
    Owned { e.assign handle (.str s) with supply := ⟨pool, source⟩ } := by
  have hid : ∀ handle', ({ e.assign handle (.str s) with supply := ⟨pool, source⟩ } : Evaluation).idOf? handle' =
      if handle' = handle then some (.str s) else e.idOf? handle' := idOf?_assign e handle (.str s)
  have hkept : Ownership.Keyed (match e.idOf? handle with
      | some old => if old == Value.str s then e.owners else Ownership.release e.owners old
      | none => e.owners) := by
    split
    · split
      · exact h.keyed
      · exact h.keyed.release _
    · exact h.keyed
  refine ⟨h.met, ?_, hkept.claim s handle, ?_, ?_⟩
  · intro handle' id hi
    rw [hid] at hi
    split at hi
    · next he => exact he ▸ hh
    · exact h.bound hi
  · intro handle' id
    refine (Ownership.find?_eq_some_iff (hkept.claim s handle)).trans ?_
    rw [Ownership.mem_claim, h.mem_kept, hid]
    split
    · next he =>
      subst he
      simp [eq_comm]
    · next he =>
      constructor
      · rintro (hp | ⟨hi, -, -⟩)
        · cases hp
          exact absurd rfl he
        · exact hi
      · intro hi
        refine .inr ⟨hi, he, ?_⟩
        rintro rfl
        exact he (hs handle' ((h.inverse _ _).mpr hi))
  · intro handle' id hi
    rw [hid] at hi
    split at hi
    · cases hi
      exact hsp
    · exact hpool id (h.issued hi)

end Evaluation

namespace Evaluating

variable {e e' : Evaluation} {handle : Handle} {authored id : Value}

/-- A handle that keeps an id gets it again where none is authored, and nothing changes. -/
theorem instanceId_of_kept (ha : authored.truthy = false) (hi : e.idOf? handle = some id) :
    instanceId handle authored e = (.ok id, e) := by
  rw [instanceId_apply, ha, hi]
  rfl

/-- An id that was given is kept by its handle; the other handles keep theirs. -/
theorem idOf?_of_instanceId_eq_ok (h : instanceId handle authored e = (.ok id, e')) (handle' : Handle) :
    e'.idOf? handle' = if handle' = handle then some id else e.idOf? handle' := by
  rw [instanceId_apply] at h
  split at h
  · split at h
    · cases h
    · split at h
      · cases h
      · cases h
        exact Evaluation.idOf?_assign e handle authored handle'
  · split at h
    · next hi =>
      cases h
      split
      · next he => rw [he, hi]
      · rfl
    · split at h
      · next hf =>
        cases h
        refine (Evaluation.idOf?_assign _ handle _ handle').trans ?_
        split
        · rfl
        · have he := congrArg Prod.snd hf
          simp only at he
          rw [← he]
          rfl
      · cases h

/-- No handle loses its id when a node is refused one. -/
theorem ids_of_instanceId_eq_error {fault : Fault} (h : instanceId handle authored e = (.error fault, e')) :
    e'.ids = e.ids ∧ e'.owners = e.owners := by
  rw [instanceId_apply] at h
  split at h
  · split at h
    · cases h
      exact ⟨rfl, rfl⟩
    · split at h
      · cases h
        exact ⟨rfl, rfl⟩
      · cases h
  · split at h
    · cases h
    · split at h
      · cases h
      · next hf =>
        cases h
        have he := congrArg Prod.snd hf
        simp only at he
        rw [← he]
        exact ⟨rfl, rfl⟩

/-- Giving ids meets no node. -/
theorem met_instanceId (handle : Handle) (authored : Value) (e : Evaluation) :
    (instanceId handle authored e).2.met = e.met := by
  have hf : (freshId e).2.met = e.met := rfl
  rw [instanceId_apply]
  split
  · split
    · rfl
    · split <;> rfl
  · split
    · rfl
    · split
      · next he =>
        rw [he] at hf
        exact hf
      · next he =>
        rw [he] at hf
        exact hf

/-- The tables still agree when a node takes an id, keeps the one it has, or is refused one. -/
theorem owned_instanceId (h : e.Owned) (hh : handle < e.met.length) (ha : authored.IsTextOrNull) :
    (instanceId handle authored e).2.Owned := by
  rw [instanceId_apply]
  split
  · next ht =>
    obtain rfl | ⟨s, rfl⟩ := ha
    · cases ht
    split
    · exact h
    · split
      · exact h
      · next hn =>
        refine h.assign hh ?_ _ (fun id => IdPool.contains_reserve_of_contains _) ?_
        · intro handle' ho
          simpa [ho] using hn
        · exact IdPool.contains_reserve _ _ (by rw [Value.str_beq_iff])
  · split
    · exact h
    · rcases hn : e.supply.pool.next e.supply.source IdPool.defaultLength with ⟨_ | s, pool, source⟩
      · have hp := IdPool.of_next_eq_error hn
        simp only [freshId, hn]
        exact ⟨h.met, h.bound, h.keyed, h.inverse, fun hi => hp ▸ h.issued hi⟩
      · obtain ⟨hc, rfl⟩ := IdPool.of_next_eq_ok hn
        simp only [freshId, hn]
        refine h.assign hh ?_ source (fun id => IdPool.contains_reserve_of_contains _) ?_
        · intro handle' ho
          have hi := h.issued ((h.inverse _ _).mp ho)
          rw [hc] at hi
          cases hi
        · exact IdPool.contains_reserve _ _ (by rw [Value.str_beq_iff])

end Evaluating

end SceneTree
